import DeoLang.Machine.Opcode

/-!
# The target machine

* `Cpu`, `step`: the part of the target machine that images use. Bytes are on the stack, the last
  one pushed first, and a word is pushed high byte first.
* `Steps`: several steps, with the offsets of the opcodes that they execute.
* `AtOpcode`: the offsets at which an image has an opcode and not an immediate byte.
* **`Steps.atOpcode`**: from an opcode on, only opcodes are executed.
-/

namespace DeoLang

/-- A state of the machine: the offset of the next opcode in the image, the working stack with its
top first, and what was written to devices, oldest first. -/
structure Cpu where
  offset : Nat
  stack : List Byte
  written : List (Byte × Word)
  deriving Repr, DecidableEq

/-- What one step comes to. A read behind the image, an opcode that the machine does not have, a
stack with too few bytes and a division by zero are faults. -/
inductive Step where
  | next (c : Cpu)
  | halt
  | fault
  deriving Repr, DecidableEq

/-- The number in two bytes. -/
def wordNat (high low : Byte) : Nat :=
  256 * high.toNat + low.toNat

/-- The stack with the last sixteen bits of `n` on top. -/
def pushNat (n : Nat) (stack : List Byte) : List Byte :=
  BitVec.ofNat 8 n :: BitVec.ofNat 8 (n / 256) :: stack

/-- The result of an arithmetic opcode on unsigned words, which still has to wrap around. -/
def arithNat (opcode : Byte) (left right : Nat) : Option Nat :=
  if opcode = Opcode.add2.byte then some (left + right)
  else if opcode = Opcode.sub2.byte then some (left + 0x10000 - right)
  else if opcode = Opcode.mul2.byte then some (left * right)
  else if opcode = Opcode.div2.byte ∧ right ≠ 0 then some (left / right)
  else none

namespace Cpu

/-- The machine behind an opcode without immediate bytes, which leaves `stack`. -/
def pass (c : Cpu) (stack : List Byte) : Cpu :=
  { c with offset := c.offset + 1, stack := stack }

/-- Pushes the two bytes behind the opcode. -/
def literal (image : List Byte) (c : Cpu) : Step :=
  match image[c.offset + 1]?, image[c.offset + 2]? with
  | some high, some low =>
    .next { c with offset := c.offset + 3, stack := low :: high :: c.stack }
  | _, _ => .fault

/-- Removes the byte below the top. -/
def nip (c : Cpu) : Step :=
  match c.stack with
  | top :: _ :: rest => .next (c.pass (top :: rest))
  | _ => .fault

/-- Writes a word to the device on top of the stack. -/
def output (c : Cpu) : Step :=
  match c.stack with
  | device :: low :: high :: rest =>
    .next { c.pass rest with
      written := c.written ++ [(device, BitVec.ofNat 16 (wordNat high low))] }
  | _ => .fault

/-- Replaces two words by the result of an arithmetic opcode. The right operand is on top. -/
def arith (opcode : Byte) (c : Cpu) : Step :=
  match c.stack with
  | rightLow :: rightHigh :: leftLow :: leftHigh :: rest =>
    match arithNat opcode (wordNat leftHigh leftLow) (wordNat rightHigh rightLow) with
    | some n => .next (c.pass (pushNat n rest))
    | none => .fault
  | _ => .fault

/-- One step of the machine. -/
def step (image : List Byte) (c : Cpu) : Step :=
  match image[c.offset]? with
  | none => .fault
  | some opcode =>
    if opcode = Opcode.brk.byte then .halt
    else if opcode = Opcode.lit2.byte then c.literal image
    else if opcode = Opcode.nip.byte then c.nip
    else if opcode = Opcode.deo2.byte then c.output
    else c.arith opcode

theorem step_eq_halt {image : List Byte} {c : Cpu}
    (fetch : image[c.offset]? = some Opcode.brk.byte) : c.step image = .halt := by
  rw [step, fetch]
  rfl

end Cpu

/-- Several steps from one state to another, with the offsets of the opcodes executed. -/
inductive Steps (image : List Byte) : Cpu → List Nat → Cpu → Prop where
  | refl (c : Cpu) : Steps image c [] c
  | head {c c' c'' : Cpu} {offsets : List Nat} : c.step image = .next c' →
      Steps image c' offsets c'' → Steps image c (c.offset :: offsets) c''

namespace Steps

variable {image : List Byte} {c c' c'' : Cpu} {as bs : List Nat}

theorem single (h : c.step image = .next c') : Steps image c [c.offset] c' :=
  .head h (.refl c')

theorem trans (h : Steps image c as c') (h' : Steps image c' bs c'') :
    Steps image c (as ++ bs) c'' := by
  induction h with
  | refl => exact h'
  | head first _ ih => exact .head first (ih h')

end Steps

/-! ## Opcodes and immediate bytes -/

/-- The offsets of the opcodes of an image that is decoded from its start on. The bytes at other
offsets are immediate ones. -/
inductive AtOpcode (image : List Byte) : Nat → Prop where
  | start : AtOpcode image 0
  | next {offset : Nat} {opcode : Byte} : AtOpcode image offset → image[offset]? = some opcode →
      AtOpcode image (offset + 1 + (Opcode.mk opcode).immediate)

theorem immediate_of_arithNat {opcode : Byte} {left right n : Nat}
    (h : arithNat opcode left right = some n) : (Opcode.mk opcode).immediate = 0 := by
  unfold arithNat at h
  split at h
  · next e => rw [e]; decide
  split at h
  · next e => rw [e]; decide
  split at h
  · next e => rw [e]; decide
  split at h
  · next e => rw [e.1]; decide
  · cases h

/-- A step goes on behind the immediate bytes of its opcode. -/
theorem offset_of_step {image : List Byte} {c c' : Cpu} (h : c.step image = .next c') :
    ∃ opcode, image[c.offset]? = some opcode ∧
      c'.offset = c.offset + 1 + (Opcode.mk opcode).immediate := by
  unfold Cpu.step at h
  split at h
  · cases h
  next opcode fetch =>
  refine ⟨opcode, fetch, ?_⟩
  split at h
  · cases h
  split at h
  · next e =>
    unfold Cpu.literal at h
    split at h <;> cases h
    rw [e]
    rfl
  split at h
  · next e =>
    unfold Cpu.nip at h
    split at h <;> cases h
    rw [e]
    rfl
  split at h
  · next e =>
    unfold Cpu.output at h
    split at h <;> cases h
    rw [e]
    rfl
  · unfold Cpu.arith at h
    split at h
    · split at h <;> cases h
      next arith => rw [immediate_of_arithNat arith]; rfl
    · cases h

/-- **From an opcode on, a run executes opcodes only, and it stops at one.** -/
theorem Steps.atOpcode {image : List Byte} {c c' : Cpu} {offsets : List Nat}
    (h : Steps image c offsets c') (placed : AtOpcode image c.offset) :
    (∀ i ∈ offsets, AtOpcode image i) ∧ AtOpcode image c'.offset := by
  induction h with
  | refl => simp [placed]
  | head first _ ih =>
    obtain ⟨opcode, fetch, next⟩ := offset_of_step first
    obtain ⟨executed, last⟩ := ih (next ▸ placed.next fetch)
    exact ⟨List.forall_mem_cons.mpr ⟨placed, executed⟩, last⟩

end DeoLang
