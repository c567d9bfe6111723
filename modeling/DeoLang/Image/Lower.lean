import DeoLang.Image.Emitter
import DeoLang.Program.Basic

/-!
# Images of programs

* `Expr.emit`, `emitBody`, `Block.emit`: the code of the parts of a program.
* `Program.emit`: the code of a program. Main blocks go to the reset vector.
* `Program.image`: the bytes of a program. `exists_emitMains` says that there always are some.

Operands are pushed from left to right. A device output pushes its value first, so that its
device is on top of the stack, and drops the high byte of the device.
-/

namespace DeoLang

/-- Why a program cannot be emitted. -/
inductive Defect where
  | nestedMain
  deriving Repr, DecidableEq

/-- The instruction of an operator. -/
def BinOp.opcode : BinOp → Opcode
  | add => .add2
  | sub => .sub2
  | mul => .mul2
  | div => .div2

/-- Writes the code that pushes the value of an expression. -/
def Expr.emit : Expr → Emitter → Emitter
  | literal value, e => e.push value
  | binary op lhs rhs, e => (rhs.emit (lhs.emit e)).op op.opcode

/-- Writes the code of the statements of a body. -/
def emitBody : List Stmt → Emitter → Emitter
  | [], e => e
  | .deo device value :: rest, e =>
    emitBody rest (((device.emit (value.emit e)).op .nip).op .deo2)
  | .block _ body :: rest, e => emitBody rest (emitBody body e)

/-- Writes the code of a main block, which ends by halting. A main block within another is a
defect. -/
def Block.emit (b : Block) (e : Emitter) : Except Defect Emitter :=
  if e.target = .vector then .error .nestedMain
  else .ok (((emitBody b.body (e.select .vector)).op .brk).select .rest)

/-- Writes the code of main blocks. -/
def emitMains : List Block → Emitter → Except Defect Emitter
  | [], e => .ok e
  | b :: later, e =>
    match b.emit e with
    | .error d => .error d
    | .ok e => emitMains later e

/-- Main blocks are emitted without a defect, and the emitter is outside of main blocks then. -/
theorem exists_emitMains (mains : List Block) {e : Emitter} (h : e.target = .rest) :
    ∃ e', emitMains mains e = .ok e' ∧ e'.target = .rest := by
  induction mains generalizing e with
  | nil => exact ⟨e, rfl, h⟩
  | cons b later ih =>
    have ok : b.emit e =
        .ok (((emitBody b.body (e.select .vector)).op .brk).select .rest) := by
      simp [Block.emit, h]
    rw [emitMains, ok]
    exact ih rfl

/-- Writes the code of a program. -/
def Program.emit (p : Program) : Emitter :=
  match _h : emitMains p.mains .empty with
  | .ok e => e
  | .error _ => absurd (exists_emitMains p.mains (e := .empty) rfl) (by simp [_h])

/-- The bytes of a program, from the reset vector on. -/
def Program.image (p : Program) : List Byte :=
  p.emit.image

end DeoLang
