import DeoLang.Text.Hex
import DeoLang.Word

/-!
# Opcodes

* `Opcode`: an instruction byte. Its low five bits choose the operation and its high three bits
  are the mode flags.
* `Opcode.table`: the operations that have a name of their own.
* `Opcode.mnemonic?`: the name of an opcode with a suffix for each mode.
* `Opcode.immediate`: how many bytes behind an opcode belong to it.
-/

namespace DeoLang

/-- An instruction byte. -/
structure Opcode where
  byte : Byte
  deriving Repr, DecidableEq

namespace Opcode

/-- The flag of the sixteen bit mode. -/
def shortFlag : Byte := 0x20

/-- The flag that leaves operands on the stack. -/
def keepFlag : Byte := 0x40

/-- The flag that selects the return stack. -/
def returnFlag : Byte := 0x80

/-- The bits that choose the operation. -/
def baseMask : Byte := 0x1F

/-- The opcode in sixteen bit mode. -/
def short (o : Opcode) : Opcode := ⟨o.byte ||| shortFlag⟩

/-- The opcode that keeps its operands. -/
def keep (o : Opcode) : Opcode := ⟨o.byte ||| keepFlag⟩

/-- The opcode on the return stack. -/
def ret (o : Opcode) : Opcode := ⟨o.byte ||| returnFlag⟩

/-- The opcode without mode flags. -/
def base (o : Opcode) : Opcode := ⟨o.byte &&& baseMask⟩

/-- Whether the opcode works on sixteen bits. -/
def isShort (o : Opcode) : Bool := o.byte &&& shortFlag ≠ 0

/-- Whether the opcode keeps its operands. -/
def isKeep (o : Opcode) : Bool := o.byte &&& keepFlag ≠ 0

/-- Whether the opcode works on the return stack. -/
def isReturn (o : Opcode) : Bool := o.byte &&& returnFlag ≠ 0

/-- Halts the machine. -/
def brk : Opcode := ⟨0x00⟩

/-- Removes the value below the top of the stack. -/
def nip : Opcode := ⟨0x03⟩

/-- Writes a value to a device. -/
def deo : Opcode := ⟨0x17⟩

/-- Adds the two values on top. -/
def add : Opcode := ⟨0x18⟩

/-- Subtracts the value on top from the one below. -/
def sub : Opcode := ⟨0x19⟩

/-- Multiplies the two values on top. -/
def mul : Opcode := ⟨0x1A⟩

/-- Divides the value below the top by the one on top. -/
def div : Opcode := ⟨0x1B⟩

/-- Pushes the byte behind the opcode. -/
def lit : Opcode := ⟨0x80⟩

/-- Writes a word to a device. -/
def deo2 : Opcode := deo.short

/-- Adds two words. -/
def add2 : Opcode := add.short

/-- Subtracts two words. -/
def sub2 : Opcode := sub.short

/-- Multiplies two words. -/
def mul2 : Opcode := mul.short

/-- Divides two words. -/
def div2 : Opcode := div.short

/-- Pushes the word behind the opcode, its high byte first. -/
def lit2 : Opcode := lit.short

/-- The opcodes that have a name of their own. -/
def table : List (String × Opcode) :=
  [("BRK", brk), ("NIP", nip), ("DEO", deo), ("DEO2", deo2), ("ADD", add), ("ADD2", add2),
    ("SUB", sub), ("SUB2", sub2), ("MUL", mul), ("MUL2", mul2), ("DIV", div), ("DIV2", div2),
    ("LIT", lit), ("LIT2", lit2)]

/-- The opcode with a name of the table. -/
def ofName? (name : String) : Option Opcode :=
  (table.find? fun row => row.1 = name).map Prod.snd

/-- The name of the opcode in the table. -/
def name? (o : Opcode) : Option String :=
  (table.find? fun row => row.2 = o).map Prod.fst

/-- The suffixes for the mode flags. -/
def suffix (o : Opcode) : String :=
  (if o.isShort then "2" else "") ++ (if o.isKeep then "k" else "") ++
    (if o.isReturn then "r" else "")

/-- The name of the opcode: its own name, or that of its operation with a suffix for each flag.
The flags of the halting operation stand for other operations, which have no name here. -/
def mnemonic? (o : Opcode) : Option String :=
  match o.name? with
  | some name => some name
  | none => if o.base = brk then none else o.base.name?.map fun name => name ++ o.suffix

/-- The name of the opcode, or its byte if it has none. -/
def render (o : Opcode) : String :=
  o.mnemonic?.getD ("0x" ++ String.ofList (hexFixed 2 o.byte.toNat))

/-- How many bytes behind the opcode belong to it. -/
def immediate (o : Opcode) : Nat :=
  if o = lit then 1 else if o = lit2 then 2 else 0

end Opcode

end DeoLang
