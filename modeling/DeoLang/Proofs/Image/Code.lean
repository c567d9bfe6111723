import Mathlib
import DeoLang.Image.Lower
import DeoLang.Proofs.Program.Outputs

/-!
# The code of a program

* `Instr`, `Instr.bytes`: the instructions that programs are made of, and their bytes.
* `Expr.code`, `Output.code`, `Block.code`, `Program.code`: the instructions of a program.
* `Emitter.append`: what writing code does to an emitter.
* **`image_eq_bytes`**: the image of a program is the bytes of its code.
* `Output.size`, **`length_image`**: how long an image is.
-/

namespace DeoLang

/-- An instruction of a program. -/
inductive Instr where
  | lit2 (value : Word)
  | arith (op : BinOp)
  | nip
  | deo2
  | brk
  deriving Repr, DecidableEq

namespace Instr

/-- The opcode of an instruction. -/
def opcode : Instr → Opcode
  | lit2 _ => .lit2
  | arith op => op.opcode
  | nip => .nip
  | deo2 => .deo2
  | brk => .brk

/-- The bytes behind the opcode: the two bytes of a literal, the high one first. -/
def operand : Instr → List Byte
  | lit2 value => [value.high, value.low]
  | _ => []

/-- The bytes of an instruction. -/
def bytes (i : Instr) : List Byte :=
  i.opcode.byte :: i.operand

end Instr

/-- The bytes of a list of instructions. -/
def codeBytes (code : List Instr) : List Byte :=
  code.flatMap Instr.bytes

@[simp] theorem codeBytes_nil : codeBytes [] = [] := rfl

@[simp] theorem codeBytes_cons (i : Instr) (code : List Instr) :
    codeBytes (i :: code) = i.bytes ++ codeBytes code := rfl

@[simp] theorem codeBytes_append (a b : List Instr) :
    codeBytes (a ++ b) = codeBytes a ++ codeBytes b :=
  List.flatMap_append

/-- The instructions that push the value of an expression. -/
def Expr.code : Expr → List Instr
  | literal value => [.lit2 value]
  | binary op lhs rhs => lhs.code ++ rhs.code ++ [.arith op]

/-- The instructions of an output: its value, its device, and the output itself. -/
def Output.code (o : Output) : List Instr :=
  o.value.code ++ o.device.code ++ [.nip, .deo2]

/-- The instructions of the outputs of a body. -/
def bodyCode (body : List Stmt) : List Instr :=
  (outputs body).flatMap Output.code

/-- The instructions of a main block. -/
def Block.code (b : Block) : List Instr :=
  bodyCode b.body ++ [.brk]

/-- The instructions of a program. -/
def Program.code (p : Program) : List Instr :=
  p.mains.flatMap Block.code

@[simp] theorem bodyCode_nil : bodyCode [] = [] := by
  simp [bodyCode]

@[simp] theorem bodyCode_deo (device value : Expr) (rest : List Stmt) :
    bodyCode (.deo device value :: rest) =
      value.code ++ device.code ++ [.nip, .deo2] ++ bodyCode rest := by
  simp [bodyCode, Output.code]

@[simp] theorem bodyCode_block (line : Nat) (body rest : List Stmt) :
    bodyCode (.block line body :: rest) = bodyCode body ++ bodyCode rest := by
  simp [bodyCode]

/-! ## What is emitted -/

namespace Emitter

/-- The emitter with `bytes` written to its section. -/
def append (e : Emitter) (bytes : List Byte) : Emitter :=
  match e.target with
  | .vector => { e with vector := bytes.reverse ++ e.vector }
  | .rest => { e with rest := bytes.reverse ++ e.rest }

theorem append_nil (e : Emitter) : e.append [] = e := by
  unfold append
  split <;> rfl

theorem append_append (e : Emitter) (a b : List Byte) :
    (e.append a).append b = e.append (a ++ b) := by
  obtain ⟨vector, rest, target⟩ := e
  cases target <;> simp [append]

theorem byte_eq_append (e : Emitter) (b : Byte) : e.byte b = e.append [b] := by
  obtain ⟨vector, rest, target⟩ := e
  cases target <;> rfl

theorem op_eq_append (e : Emitter) (o : Opcode) : e.op o = e.append [o.byte] :=
  e.byte_eq_append o.byte

theorem push_eq_append (e : Emitter) (w : Word) : e.push w = e.append (Instr.lit2 w).bytes := by
  rw [push, op_eq_append, byte_eq_append, byte_eq_append, append_append, append_append]
  rfl

end Emitter

theorem emit_eq_append (x : Expr) (e : Emitter) : x.emit e = e.append (codeBytes x.code) := by
  induction x generalizing e with
  | literal value => simp [Expr.emit, Expr.code, Emitter.push_eq_append]
  | binary op lhs rhs ihl ihr =>
    rw [Expr.emit, ihl, ihr, Emitter.op_eq_append, Emitter.append_append, Emitter.append_append]
    simp [Expr.code, Instr.bytes, Instr.opcode, Instr.operand]

theorem emitBody_eq_append (body : List Stmt) (e : Emitter) :
    emitBody body e = e.append (codeBytes (bodyCode body)) := by
  induction body using body_induction generalizing e with
  | nil => simp [emitBody, Emitter.append_nil]
  | deo device value rest ih =>
    rw [emitBody, ih, emit_eq_append, emit_eq_append]
    simp only [Emitter.op_eq_append, Emitter.append_append, bodyCode_deo, codeBytes_append]
    simp [Instr.bytes, Instr.opcode, Instr.operand]
  | block line body rest ihb ihr =>
    rw [emitBody, ihb, ihr, Emitter.append_append, bodyCode_block, codeBytes_append]

/-- A main block adds its code to the reset vector, and leaves the rest selected. -/
theorem emit_block_eq (b : Block) {e : Emitter} (h : e.target = .rest) :
    b.emit e = .ok { e with vector := (codeBytes b.code).reverse ++ e.vector } := by
  obtain ⟨vector, rest, target⟩ := e
  cases h
  simp [Block.emit, emitBody_eq_append, Emitter.select, Emitter.op_eq_append, Emitter.append,
    Block.code, Instr.bytes, Instr.opcode, Instr.operand]

theorem emitMains_eq (mains : List Block) {e : Emitter} (h : e.target = .rest) :
    emitMains mains e =
      .ok { e with vector := (codeBytes (mains.flatMap Block.code)).reverse ++ e.vector } := by
  induction mains generalizing e with
  | nil => simp [emitMains]
  | cons b later ih =>
    rw [emitMains, emit_block_eq b h]
    refine (ih (e := { e with vector := (codeBytes b.code).reverse ++ e.vector }) h).trans ?_
    simp

/-- **The image of a program is the bytes of its code.** -/
theorem image_eq_bytes (p : Program) : p.image = codeBytes p.code := by
  have ok := emitMains_eq p.mains (e := .empty) rfl
  have emit : p.emit = { Emitter.empty with
      vector := (codeBytes (p.mains.flatMap Block.code)).reverse ++ Emitter.empty.vector } := by
    unfold Program.emit
    split
    · next e h => exact Except.ok.inj (h.symm.trans ok)
    · next d h => rw [ok] at h; cases h
  rw [Program.image, emit]
  simp [Emitter.image, Emitter.empty, Program.code]

/-! ## Sizes -/

/-- The number of bytes of the code of an expression: three for a literal and one for an
operation. -/
def Expr.size : Expr → Nat
  | literal _ => 3
  | binary _ lhs rhs => lhs.size + rhs.size + 1

/-- The number of bytes of the code of an output. -/
def Output.size (o : Output) : Nat :=
  o.value.size + o.device.size + 2

theorem Expr.length_code (e : Expr) : (codeBytes e.code).length = e.size := by
  induction e with
  | literal value => rfl
  | binary op lhs rhs ihl ihr =>
    rw [code, codeBytes_append, codeBytes_append, List.length_append, List.length_append, ihl, ihr]
    rfl

theorem Output.length_code (o : Output) : (codeBytes o.code).length = o.size := by
  rw [code, codeBytes_append, codeBytes_append, List.length_append, List.length_append,
    o.value.length_code, o.device.length_code]
  rfl

theorem length_bodyCode (body : List Stmt) :
    (codeBytes (bodyCode body)).length = ((outputs body).map Output.size).sum := by
  rw [bodyCode]
  induction outputs body with
  | nil => rfl
  | cons o os ih =>
    rw [List.flatMap_cons, codeBytes_append, List.length_append, ih, o.length_code, List.map_cons,
      List.sum_cons]

/-- **An image has the bytes of its outputs and one more for each main block.** -/
theorem length_image (p : Program) :
    p.image.length = (p.outputs.map Output.size).sum + p.mains.length := by
  rw [image_eq_bytes, Program.code, Program.outputs]
  induction p.mains with
  | nil => rfl
  | cons b later ih =>
    have block : (codeBytes b.code).length = (b.outputs.map Output.size).sum + 1 := by
      rw [Block.code, codeBytes_append, List.length_append, length_bodyCode]
      rfl
    rw [List.flatMap_cons, codeBytes_append, List.length_append, ih, block, List.flatMap_cons,
      List.map_append, List.sum_append, List.length_cons]
    omega

end DeoLang
