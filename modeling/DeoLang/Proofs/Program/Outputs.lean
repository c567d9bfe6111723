import DeoLang.Program.Basic

/-!
# The outputs of a program

* `body_induction`: induction on the statements of a body, with one hypothesis for the body of a
  nested block and one for what follows.
* `Output`, `outputs`, `Program.outputs`: the device outputs of a program, in order. Blocks within
  blocks count for nothing but their statements.
* `relineBody`, `Block.reline`: the same with all blocks at one line; `outputs_relineBody`.
-/

namespace DeoLang

/-- Induction on bodies. -/
@[elab_as_elim]
theorem body_induction {motive : List Stmt → Prop} (nil : motive [])
    (deo : ∀ device value rest, motive rest → motive (.deo device value :: rest))
    (block : ∀ line body rest, motive body → motive rest → motive (.block line body :: rest)) :
    ∀ body, motive body
  | [] => nil
  | .deo device value :: rest => deo device value rest (body_induction nil deo block rest)
  | .block line body :: rest =>
    block line body rest (body_induction nil deo block body) (body_induction nil deo block rest)

/-- A device output: the expressions of its device and of its value. -/
structure Output where
  device : Expr
  value : Expr
  deriving Repr, DecidableEq

/-- The outputs of a body, those of nested blocks in place. -/
def outputs : List Stmt → List Output
  | [] => []
  | .deo device value :: rest => ⟨device, value⟩ :: outputs rest
  | .block _ body :: rest => outputs body ++ outputs rest

@[simp] theorem outputs_nil : outputs [] = [] := by
  rw [outputs]

@[simp] theorem outputs_deo (device value : Expr) (rest : List Stmt) :
    outputs (.deo device value :: rest) = ⟨device, value⟩ :: outputs rest := by
  rw [outputs]

@[simp] theorem outputs_block (line : Nat) (body rest : List Stmt) :
    outputs (.block line body :: rest) = outputs body ++ outputs rest := by
  rw [outputs]

theorem outputs_append (before after : List Stmt) :
    outputs (before ++ after) = outputs before ++ outputs after := by
  induction before with
  | nil => simp
  | cons stmt before ih => cases stmt <;> simp [ih]

/-- The outputs of a main block. -/
def Block.outputs (b : Block) : List Output :=
  DeoLang.outputs b.body

/-- The outputs of a program. -/
def Program.outputs (p : Program) : List Output :=
  p.mains.flatMap Block.outputs

/-! ## The lines of blocks -/

/-- The statements with all blocks at one line. -/
def relineBody (line : Nat) : List Stmt → List Stmt
  | [] => []
  | .deo device value :: rest => .deo device value :: relineBody line rest
  | .block _ body :: rest => .block line (relineBody line body) :: relineBody line rest

/-- The block at a line, with all blocks within it. -/
def Block.reline (line : Nat) (b : Block) : Block :=
  ⟨line, relineBody line b.body⟩

@[simp] theorem relineBody_nil (line : Nat) : relineBody line [] = [] := by
  rw [relineBody]

@[simp] theorem relineBody_deo (line : Nat) (device value : Expr) (rest : List Stmt) :
    relineBody line (.deo device value :: rest) = .deo device value :: relineBody line rest := by
  rw [relineBody]

@[simp] theorem relineBody_block (line line' : Nat) (body rest : List Stmt) :
    relineBody line (.block line' body :: rest) =
      .block line (relineBody line body) :: relineBody line rest := by
  rw [relineBody]

theorem relineBody_append (line : Nat) (before after : List Stmt) :
    relineBody line (before ++ after) = relineBody line before ++ relineBody line after := by
  induction before with
  | nil => simp
  | cons stmt before ih => cases stmt <;> simp [ih]

theorem outputs_relineBody (line : Nat) (body : List Stmt) :
    outputs (relineBody line body) = outputs body := by
  induction body using body_induction with
  | nil => rw [relineBody_nil]
  | deo device value rest ih => rw [relineBody_deo, outputs_deo, outputs_deo, ih]
  | block line' body rest ihb ihr => rw [relineBody_block, outputs_block, outputs_block, ihb, ihr]

theorem Block.outputs_reline (line : Nat) (b : Block) : (b.reline line).outputs = b.outputs :=
  outputs_relineBody line b.body

end DeoLang
