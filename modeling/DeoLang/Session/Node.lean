import DeoLang.Program.Basic
import DeoLang.Session.Basic

/-!
# Parsing the nodes of a program

* `literal`, `expr`, `deo`, `stmt`, `block`, `decl`, `program`: each reads one node at the current
  token. A node that cannot be built is `none`, and an error was reported.
* `stmts_induction`, `decls_induction`: induction along the statements of a body and along the
  declarations of a source.
* `parse`: the program of a source, or the errors in it.

A block goes on behind a broken statement, and a program behind a broken declaration. The loops
end because each round uses up a token: `pending_stmt_lt`, `pending_decl_lt`.
-/

namespace DeoLang

namespace Session

/-- Reads a literal. Its token is used up before its value is looked at. -/
def literal (s : Session) : Option Word × Session :=
  match s.current.terminal with
  | .integer =>
    match readInt s.current.lexeme with
    | .ok value => (some value, s.advance)
    | .error e => (none, s.advance.error s.current.line e.message)
  | .character =>
    match charValue s.current.lexeme with
    | some value => (some value, s.advance)
    | none =>
      (none, s.advance.error s.current.line ("malformed character literal " ++ s.current.lexeme))
  | _ => (none, s.errorExpected "expression")

/-- Reads an expression. -/
def expr (s : Session) : Option Expr × Session :=
  let r := s.literal
  (r.1.map .literal, r.2)

/-- Reads the operands of a device output, behind its keyword. -/
def deo (s : Session) : Option Stmt × Session :=
  match s.expr with
  | (none, s) => (none, s)
  | (some device, s) =>
    match s.expect (.punct .comma) with
    | (none, s) => (none, s)
    | (some _, s) =>
      match s.expr with
      | (none, s) => (none, s)
      | (some value, s) => (some (.deo device value), s)

theorem pending_literal_le (s : Session) : s.literal.2.pending ≤ s.pending := by
  have := s.pending_advance_le
  unfold literal
  split
  · split <;> simpa
  · split <;> simpa
  · simp

theorem pending_expr_le (s : Session) : s.expr.2.pending ≤ s.pending :=
  s.pending_literal_le

theorem pending_deo_le (s : Session) : s.deo.2.pending ≤ s.pending := by
  unfold deo
  have first := s.pending_expr_le
  split
  · next h => simpa [h] using first
  · next device s₁ h =>
    have comma := s₁.pending_expect_le (.punct .comma)
    simp only [h] at first
    split
    · next h₁ => simp only [h₁] at comma; exact Nat.le_trans comma first
    · next s₂ h₁ =>
      have second := s₂.pending_expr_le
      simp only [h₁] at comma
      split
      · next h₂ =>
        simp only [h₂] at second
        exact Nat.le_trans second (Nat.le_trans comma first)
      · next h₂ =>
        simp only [h₂] at second
        exact Nat.le_trans second (Nat.le_trans comma first)

/-- Whether the statements of a block end here. -/
def atBodyEnd (s : Session) : Bool :=
  s.atEnd || s.check (.punct .braceClose)

mutual

/-- A statement, with the proof that reading it uses up a token. -/
def stmtStep (s : Session) : { r : Option Stmt × Session //
    r.2.pending ≤ s.pending ∧ (s.atEnd = false → r.2.pending < s.pending) } :=
  if deo : s.check (.keyword .deo) then
    ⟨s.advance.deo, by
      have lt := pending_advance_lt (atEnd_of_check deo (by decide))
      have le := s.advance.pending_deo_le
      omega⟩
  else if brace : s.check (.punct .braceOpen) then
    let r := s.blockStep
    ⟨(r.1.1.map fun b => .block b.line b.body, r.1.2), r.2.1, fun _ => r.2.2 brace⟩
  else
    ⟨(none, (s.errorExpected "statement").advance), by
      have le := (s.errorExpected "statement").pending_advance_le
      have lt := pending_advance_lt (s := s.errorExpected "statement")
      simp only [pending_errorExpected, atEnd, check, window_errorExpected] at *
      exact ⟨le, lt⟩⟩
termination_by (s.pending, 1)

/-- A block, with the proof that reading it uses up its opening brace. -/
def blockStep (s : Session) : { r : Option Block × Session //
    r.2.pending ≤ s.pending ∧ (s.check (.punct .braceOpen) = true → r.2.pending < s.pending) } :=
  if brace : s.check (.punct .braceOpen) then
    have lt := pending_advance_lt (atEnd_of_check brace (by decide))
    let body := s.advance.stmtsStep []
    let close := body.1.2.expect (.punct .braceClose)
    have le : close.2.pending ≤ body.1.2.pending := body.1.2.pending_expect_le _
    have le' := body.2
    ⟨(close.1.map fun _ => ⟨s.current.line, body.1.1⟩, close.2), by simp only at *; omega⟩
  else
    ⟨(none, s.errorExpected (Terminal.punct .braceOpen).describe), by simp [brace]⟩
termination_by (s.pending, 0)

/-- The statements up to a closing brace or the end, behind those in `before`, newest first. -/
def stmtsStep (s : Session) (before : List Stmt) :
    { r : List Stmt × Session // r.2.pending ≤ s.pending } :=
  if stop : s.atBodyEnd then ⟨(before.reverse, s), Nat.le_refl _⟩
  else
    have notEnd : s.atEnd = false := by
      simp only [atBodyEnd, Bool.or_eq_true, not_or, Bool.not_eq_true] at stop
      exact stop.1
    let r := s.stmtStep
    have lt := r.2.2 notEnd
    let rest := r.1.2.stmtsStep (r.1.1.toList ++ before)
    ⟨rest.1, Nat.le_trans rest.2 (Nat.le_of_lt lt)⟩
termination_by (s.pending, 2)

end

/-- Reads a statement. Behind something else it goes on, so that a body always comes to an end. -/
def stmt (s : Session) : Option Stmt × Session :=
  s.stmtStep.1

/-- Reads a block. -/
def block (s : Session) : Option Block × Session :=
  s.blockStep.1

/-- Reads statements up to a closing brace or the end. Those that cannot be built are left out. -/
def stmts (s : Session) : List Stmt × Session :=
  (s.stmtsStep []).1

theorem pending_stmt_lt {s : Session} (h : s.atEnd = false) : s.stmt.2.pending < s.pending :=
  s.stmtStep.2.2 h

theorem stmt_eq (s : Session) : s.stmt =
    if s.check (.keyword .deo) then s.advance.deo
    else if s.check (.punct .braceOpen) then
      (s.block.1.map fun b => .block b.line b.body, s.block.2)
    else (none, (s.errorExpected "statement").advance) := by
  unfold stmt block
  rw [stmtStep]
  split
  · rfl
  split <;> rfl

theorem block_eq (s : Session) : s.block =
    if s.check (.punct .braceOpen) then
      let close := s.advance.stmts.2.expect (.punct .braceClose)
      (close.1.map fun _ => ⟨s.current.line, s.advance.stmts.1⟩, close.2)
    else (none, s.errorExpected (Terminal.punct .braceOpen).describe) := by
  unfold block stmts
  rw [blockStep]
  split <;> rfl

theorem stmtsStep_eq (s : Session) (before : List Stmt) : (s.stmtsStep before).1 =
    if s.atBodyEnd then (before.reverse, s)
    else (s.stmt.2.stmtsStep (s.stmt.1.toList ++ before)).1 := by
  unfold stmt
  rw [stmtsStep]
  split <;> rfl

/-- Induction along the statements of a body. The body of a block within it comes first. -/
@[elab_as_elim]
theorem stmts_induction {motive : Session → Prop} (stop : ∀ s, s.atBodyEnd = true → motive s)
    (step : ∀ s, s.atBodyEnd = false → (s.check (.punct .braceOpen) = true → motive s.advance) →
      motive s.stmt.2 → motive s) (s : Session) : motive s := by
  -- of a statement and of a block it matters what holds of the body in it
  let inside (s : Session) : Prop := s.check (.punct .braceOpen) = true → motive s.advance
  refine stmtsStep.induct inside inside (fun s _ => motive s) ?_ ?_ ?_ ?_ ?_ ?_ ?_ s []
  · intro s deo brace
    simp only [check, Window.check, decide_eq_true_eq] at deo brace
    rw [deo] at brace
    cases brace
  · exact fun s _ _ block => block
  · exact fun s _ noBrace brace => absurd brace noBrace
  · intro s _ _ _ _ _ _ body _
    exact body
  · exact fun s noBrace brace => absurd brace noBrace
  · exact fun s _ => stop s
  · intro s _ go _ _ _ block rest _
    exact step s (Bool.eq_false_iff.mpr go) block rest

theorem stmtsStep_eq_append (s : Session) (before : List Stmt) :
    (s.stmtsStep before).1 = (before.reverse ++ s.stmts.1, s.stmts.2) := by
  unfold stmts
  induction s using stmts_induction generalizing before with
  | stop s h => simp [stmtsStep_eq, h]
  | step s h _ ih =>
    rw [stmtsStep_eq, stmtsStep_eq s [], h, ih (s.stmt.1.toList ++ before),
      ih (s.stmt.1.toList ++ [])]
    simp

/-- The statements of a body are those that can be built, one after the other. -/
theorem stmts_eq (s : Session) : s.stmts =
    if s.atBodyEnd then ([], s)
    else (s.stmt.1.toList ++ s.stmt.2.stmts.1, s.stmt.2.stmts.2) := by
  rw [stmts, stmtsStep_eq]
  split
  · rfl
  · rw [stmtsStep_eq_append]
    cases s.stmt.1 <;> simp

theorem pending_block_le (s : Session) : s.block.2.pending ≤ s.pending :=
  s.blockStep.2.1

/-- Reads a declaration. Behind something else it goes on. -/
def decl (s : Session) : Option Block × Session :=
  if s.check (.keyword .main) then s.advance.block
  else (none, (s.errorExpected "declaration").advance)

theorem pending_decl_lt {s : Session} (h : s.atEnd = false) : s.decl.2.pending < s.pending := by
  unfold decl
  split
  · exact Nat.lt_of_le_of_lt s.advance.pending_block_le (pending_advance_lt h)
  · have lt := pending_advance_lt (s := s.errorExpected "declaration")
    simp only [pending_errorExpected, atEnd, check, window_errorExpected] at *
    exact lt h

/-- Leaves a broken declaration behind. -/
def settle (s : Session) : Session :=
  if s.panic then s.recover else s

theorem pending_settle_le (s : Session) : s.settle.pending ≤ s.pending := by
  unfold settle
  split
  · exact s.pending_recover_le
  · exact Nat.le_refl _

/-- The declarations up to the end, behind those in `before`, newest first. -/
def declsAfter (before : List Block) (s : Session) : List Block × Session :=
  if _h : s.atEnd then (before.reverse, s)
  else s.decl.2.settle.declsAfter (s.decl.1.toList ++ before)
termination_by s.pending
decreasing_by
  simp only [Bool.not_eq_true] at _h
  exact Nat.lt_of_le_of_lt s.decl.2.pending_settle_le (pending_decl_lt _h)

/-- Reads declarations up to the end. Those that cannot be built are left out. -/
def decls (s : Session) : List Block × Session :=
  s.declsAfter []

theorem declsAfter_of_atEnd {s : Session} (h : s.atEnd = true) (before : List Block) :
    s.declsAfter before = (before.reverse, s) := by
  rw [declsAfter]
  simp [h]

theorem declsAfter_of_not_atEnd {s : Session} (h : s.atEnd = false) (before : List Block) :
    s.declsAfter before = s.decl.2.settle.declsAfter (s.decl.1.toList ++ before) := by
  rw [declsAfter]
  simp [h]

/-- Induction along the declarations of a source. -/
@[elab_as_elim]
theorem decls_induction {motive : Session → Prop} (stop : ∀ s, s.atEnd = true → motive s)
    (step : ∀ s, s.atEnd = false → motive s.decl.2.settle → motive s) (s : Session) : motive s :=
  declsAfter.induct (fun _ s => motive s) (fun _ => stop)
    (fun _ s go => step s (Bool.eq_false_iff.mpr go)) [] s

theorem declsAfter_eq_append (s : Session) (before : List Block) :
    s.declsAfter before = (before.reverse ++ s.decls.1, s.decls.2) := by
  unfold decls
  induction s using decls_induction generalizing before with
  | stop s h => simp [declsAfter_of_atEnd h]
  | step s h ih =>
    rw [declsAfter_of_not_atEnd h, declsAfter_of_not_atEnd h, ih (s.decl.1.toList ++ before),
      ih (s.decl.1.toList ++ [])]
    simp

/-- The declarations of a source are those that can be built, one after the other. -/
theorem decls_eq (s : Session) : s.decls =
    if s.atEnd then ([], s)
    else (s.decl.1.toList ++ s.decl.2.settle.decls.1, s.decl.2.settle.decls.2) := by
  cases h : s.atEnd with
  | true => simp [decls, declsAfter_of_atEnd h]
  | false =>
    rw [decls, declsAfter_of_not_atEnd h, declsAfter_eq_append]
    cases s.decl.1 <;> simp

/-- Reads a program: its declarations, then the end. -/
def program (s : Session) : Program × Session :=
  let r := s.decls
  (⟨r.1⟩, (r.2.expect .ending).2)

/-- Reads the whole source of a session: the program, or the errors if there are any. -/
def finish (s : Session) : Except Report Program × Session :=
  let r := s.advance.advance.program
  if r.2.diagnostics.hasErrors then (.error r.2.diagnostics, r.2) else (.ok r.1, r.2)

end Session

/-- The program of a source, or the errors in it. -/
def parse (source : String) : Except Report Program :=
  (Session.ofSource source).finish.1

end DeoLang
