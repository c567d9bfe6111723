import DeoLang.Proofs.Image.Run

/-!
# Reading an image back

* `readCode`: the instructions of bytes. `readCode_codeBytes` says that no byte of a literal is
  taken for an opcode.
* `Rebuild`: the machine with expressions in the place of values. `Rebuild.run_expr` says that the
  code of an expression leaves the expression on the stack.
* `readImage`: the outputs of the main blocks of an image; `readImage_image`.
* **`image_eq_iff`**: an image determines the outputs of its program, main block by main block.
-/

namespace DeoLang

/-! ## Instructions -/

/-- The instructions that are an opcode and nothing else. -/
def Instr.plain : List Instr :=
  [.arith .add, .arith .sub, .arith .mul, .arith .div, .nip, .deo2, .brk]

/-- The instruction that consists of one byte. -/
def Instr.ofByte? (b : Byte) : Option Instr :=
  plain.find? fun i => i.opcode.byte = b

/-- The instructions that bytes consist of. -/
def readCode : List Byte → Option (List Instr)
  | [] => some []
  | b :: rest =>
    if b = Opcode.lit2.byte then
      match rest with
      | high :: low :: rest =>
        (readCode rest).map (.lit2 (BitVec.ofNat 16 (wordNat high low)) :: ·)
      | _ => none
    else (Instr.ofByte? b).bind fun i => (readCode rest).map (i :: ·)

theorem ofNat_wordNat_high_low (w : Word) : BitVec.ofNat 16 (wordNat w.high w.low) = w := by
  rw [high_eq_ofNat, low_eq_ofNat, wordNat_toNat, BitVec.ofNat_toNat, BitVec.setWidth_eq]

theorem readCode_lit2 (w : Word) (rest : List Byte) :
    readCode ((Instr.lit2 w).bytes ++ rest) = (readCode rest).map (.lit2 w :: ·) := by
  change readCode (Opcode.lit2.byte :: w.high :: w.low :: rest) = _
  rw [readCode, if_pos rfl, ofNat_wordNat_high_low]

theorem readCode_of_ofByte? {i : Instr} {b : Byte} (h : Instr.ofByte? b = some i)
    (ne : b ≠ Opcode.lit2.byte) (rest : List Byte) :
    readCode (b :: rest) = (readCode rest).map (i :: ·) := by
  rcases rest with _ | ⟨high, _ | ⟨low, rest⟩⟩ <;> simp [readCode, ne, h]

theorem readCode_bytes (i : Instr) (rest : List Byte) :
    readCode (i.bytes ++ rest) = (readCode rest).map (i :: ·) := by
  cases i with
  | lit2 w => exact readCode_lit2 w rest
  | arith op => cases op <;> exact readCode_of_ofByte? rfl (by decide) rest
  | nip | deo2 | brk => exact readCode_of_ofByte? rfl (by decide) rest

/-- **The bytes of code fall apart into its instructions in one way only.** -/
theorem readCode_codeBytes (code : List Instr) : readCode (codeBytes code) = some code := by
  induction code with
  | nil => rfl
  | cons i code ih => rw [codeBytes_cons, readCode_bytes, ih, Option.map_some]

/-! ## Expressions and outputs -/

/-- The machine with expressions in the place of values: its stack, the outputs of the main block
that it is in, and those of the main blocks before. -/
structure Rebuild where
  stack : List Expr
  outputs : List Output
  mains : List (List Output)
  deriving Repr, DecidableEq

namespace Rebuild

/-- Nothing has been read. -/
def start : Rebuild :=
  ⟨[], [], []⟩

/-- Follows one instruction. The expression of a device stays as it is when its high byte is
dropped. -/
def step (r : Rebuild) (i : Instr) : Option Rebuild :=
  match i, r.stack with
  | .lit2 w, stack => some { r with stack := .literal w :: stack }
  | .arith op, rhs :: lhs :: stack => some { r with stack := .binary op lhs rhs :: stack }
  | .nip, _ => some r
  | .deo2, device :: value :: stack =>
    some { r with stack := stack, outputs := r.outputs ++ [⟨device, value⟩] }
  | .brk, _ => some { r with outputs := [], mains := r.mains ++ [r.outputs] }
  | _, _ => none

/-- Follows instructions. -/
def run (r : Rebuild) (code : List Instr) : Option Rebuild :=
  code.foldlM step r

@[simp] theorem run_nil (r : Rebuild) : r.run [] = some r := rfl

theorem run_append (r : Rebuild) (a b : List Instr) :
    r.run (a ++ b) = (r.run a).bind (run · b) := by
  rw [run, List.foldlM_append]
  rfl

/-- **The code of an expression puts the expression on the stack**, whatever is there already. -/
theorem run_expr (e : Expr) (r : Rebuild) :
    r.run e.code = some { r with stack := e :: r.stack } := by
  induction e generalizing r with
  | literal w => rfl
  | binary op lhs rhs ihl ihr =>
    rw [Expr.code, run_append, run_append, ihl, Option.bind_some, ihr, Option.bind_some]
    rfl

theorem run_output (o : Output) (r : Rebuild) :
    r.run o.code = some { r with outputs := r.outputs ++ [o] } := by
  rw [Output.code, run_append, run_append, run_expr, Option.bind_some, run_expr, Option.bind_some]
  rfl

theorem run_outputs (os : List Output) (r : Rebuild) :
    r.run (os.flatMap Output.code) = some { r with outputs := r.outputs ++ os } := by
  induction os generalizing r with
  | nil => simp
  | cons o os ih => rw [List.flatMap_cons, run_append, run_output, Option.bind_some, ih]; simp

theorem run_block (b : Block) (stack : List Expr) (mains : List (List Output)) :
    run ⟨stack, [], mains⟩ b.code = some ⟨stack, [], mains ++ [b.outputs]⟩ := by
  rw [Block.code, bodyCode, run_append, run_outputs]
  rfl

theorem run_mains (bs : List Block) (stack : List Expr) (mains : List (List Output)) :
    run ⟨stack, [], mains⟩ (bs.flatMap Block.code) =
      some ⟨stack, [], mains ++ bs.map Block.outputs⟩ := by
  induction bs generalizing mains with
  | nil => simp
  | cons b bs ih => rw [List.flatMap_cons, run_append, run_block, Option.bind_some, ih]; simp

end Rebuild

/-! ## Images -/

/-- The outputs of the main blocks of an image, if it is that of a program. -/
def readImage (image : List Byte) : Option (List (List Output)) := do
  let code ← readCode image
  let r ← Rebuild.start.run code
  return r.mains

/-- **The outputs of a program can be read from its image.** -/
theorem readImage_image (p : Program) : readImage p.image = some (p.mains.map Block.outputs) := by
  have code : Rebuild.start.run p.code = some ⟨[], [], p.mains.map Block.outputs⟩ :=
    Rebuild.run_mains p.mains [] []
  rw [readImage, image_eq_bytes, readCode_codeBytes]
  simp [code]

theorem code_eq_flatMap (p : Program) :
    p.code = (p.mains.map Block.outputs).flatMap fun os => os.flatMap Output.code ++ [.brk] := by
  rw [List.flatMap_map]
  rfl

theorem image_eq_of_outputs {p q : Program}
    (same : p.mains.map Block.outputs = q.mains.map Block.outputs) : p.image = q.image := by
  rw [image_eq_bytes, image_eq_bytes, code_eq_flatMap, code_eq_flatMap, same]

/-- **An image determines what it was made from.** Two programs have the same image exactly when
they have the same number of main blocks and each of these has the same outputs in both programs,
with equal trees for devices and for values. Only how the outputs are put into blocks is lost. -/
theorem image_eq_iff {p q : Program} :
    p.image = q.image ↔ p.mains.map Block.outputs = q.mains.map Block.outputs := by
  constructor
  · intro same
    have read := congrArg readImage same
    rw [readImage_image, readImage_image] at read
    exact Option.some.inj read
  · exact image_eq_of_outputs

end DeoLang
