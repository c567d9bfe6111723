import Mathlib.Logic.Relation
import DeoLang.Session.Node

/-!
# The moves of a session

* `diagnostics_report`, `diagnostics_advance`, `panic_advance`: what reporting and advancing do to
  the diagnostics.
* `Task`, `Tasks`: advancing, reporting what was expected and reading a literal, which is all that
  happens within a declaration; `tasks_stmts`, `tasks_decl` and the lemmas around them say so of
  each node.
* `Deed`, `Deeds`: everything a session does is this and starting to record again; `deeds_decls`.
* `Work`, `Works`, `Move`, `Moves`: the same with advancing and reporting any error in the place of
  tasks.
* **`Moves.prefix_diagnostics`**, **`Sound.of_moves`**: diagnostics are never taken back, all of
  them are errors, and there is one whenever errors are held back.
-/

namespace DeoLang

namespace Session

/-! ## Diagnostics -/

theorem diagnostics_report (s : Session) (d : Diagnostic) :
    (s.report d).diagnostics = if s.panic then s.diagnostics else s.diagnostics ++ [d] := by
  unfold report diagnostics
  split <;> simp [Event.diagnostic?]

@[simp] theorem panic_report (s : Session) (d : Diagnostic) : (s.report d).panic = true := by
  unfold report
  split
  · next h => exact h
  · rfl

@[simp] theorem panic_error (s : Session) (line : Nat) (message : String) :
    (s.error line message).panic = true :=
  panic_report _ _

@[simp] theorem panic_errorExpected (s : Session) (expected : String) :
    (s.errorExpected expected).panic = true :=
  panic_report _ _

theorem diagnostics_cons (w : Window) (panic : Bool) {e : Event} (h : e.diagnostic? = none)
    (history : List Event) :
    (mk w panic (e :: history)).diagnostics = (mk w panic history).diagnostics := by
  simp only [diagnostics, List.reverse_cons, List.filterMap_append]
  rw [List.filterMap_cons_none h, List.filterMap_nil, List.append_nil]

theorem diagnostics_find (s : Session) (e : LexError) : (s.find e).diagnostics =
    if s.panic then s.diagnostics else s.diagnostics ++ [e.diagnostic] := by
  rw [find, diagnostics_report, diagnostics_cons _ _ rfl]

theorem panic_find (s : Session) (e : LexError) : (s.find e).panic = true :=
  panic_report _ _

theorem foldl_find_of_panic (es : List LexError) {s : Session} (h : s.panic = true) :
    (es.foldl find s).diagnostics = s.diagnostics ∧ (es.foldl find s).panic = true := by
  induction es generalizing s with
  | nil => exact ⟨rfl, h⟩
  | cons e es ih =>
    obtain ⟨same, panic⟩ := ih (s.panic_find e)
    rw [diagnostics_find, if_pos h] at same
    exact ⟨same, panic⟩

theorem diagnostics_advance_eq (s : Session) :
    s.advance.diagnostics = (s.window.errors.foldl find s).diagnostics :=
  diagnostics_cons _ _ rfl _

/-- Of the errors in front of a token, the first one is recorded, unless errors are held back. -/
theorem diagnostics_advance (s : Session) : s.advance.diagnostics =
    if s.panic then s.diagnostics
    else s.diagnostics ++ (s.window.errors.head?.map LexError.diagnostic).toList := by
  rw [diagnostics_advance_eq]
  cases h : s.panic with
  | true => exact (foldl_find_of_panic _ h).1
  | false =>
    cases s.window.errors with
    | nil => simp
    | cons e es =>
      rw [List.foldl_cons, (foldl_find_of_panic es (s.panic_find e)).1, diagnostics_find, h]
      rfl

theorem panic_advance (s : Session) :
    s.advance.panic = (s.panic || !s.window.errors.isEmpty) := by
  change (s.window.errors.foldl find s).panic = _
  cases s.window.errors with
  | nil => simp
  | cons e es => simp [(foldl_find_of_panic es (s.panic_find e)).2]

/-! ## Tasks -/

/-- What a message can say that was expected. -/
inductive Asked : String → Prop where
  | terminal (t : Terminal) : Asked t.describe
  | expression : Asked "expression"
  | statement : Asked "statement"
  | declaration : Asked "declaration"

/-- What the nodes of a program are read with. They do not advance behind the end. -/
inductive Task : Session → Session → Prop where
  | advance {s : Session} : s.atEnd = false → Task s s.advance
  | expected (s : Session) {what : String} : Asked what → Task s (s.errorExpected what)
  | literal (s : Session) : Task s s.literal.2

/-- A task of a session, or starting to record again in front of a main block or at the end. -/
inductive Deed : Session → Session → Prop where
  | task {s s' : Session} : Task s s' → Deed s s'
  | resume (s : Session) : (s.atEnd || s.check (.keyword .main)) = true →
      Deed s { s with panic := false, history := .recovered :: s.history }

/-- Tasks one after the other. -/
abbrev Tasks : Session → Session → Prop :=
  Relation.ReflTransGen Task

/-- Deeds one after the other. -/
abbrev Deeds : Session → Session → Prop :=
  Relation.ReflTransGen Deed

theorem Tasks.deeds {s s' : Session} (h : Tasks s s') : Deeds s s' :=
  h.lift id fun _ _ => .task

theorem tasks_advance {s : Session} (go : s.atEnd = false) : Tasks s s.advance :=
  .single (.advance go)

theorem tasks_expected (s : Session) {what : String} (asked : Asked what) :
    Tasks s (s.errorExpected what) :=
  .single (.expected s asked)

theorem tasks_expect (s : Session) {t : Terminal} (ne : t ≠ .ending) :
    Tasks s (s.expect t).2 := by
  unfold expect
  split
  · next check => exact tasks_advance (atEnd_of_check check ne)
  · exact s.tasks_expected (.terminal t)

theorem tasks_expr (s : Session) : Tasks s s.expr.2 :=
  .single (.literal s)

theorem tasks_deo (s : Session) : Tasks s s.deo.2 := by
  have device := s.tasks_expr
  unfold deo
  split
  · next h => rwa [h] at device
  next s₁ h =>
  have comma := s₁.tasks_expect (t := .punct .comma) (by decide)
  rw [h] at device
  split
  · next h₁ => rw [h₁] at comma; exact device.trans comma
  next s₂ h₁ =>
  have value := s₂.tasks_expr
  rw [h₁] at comma
  split
  · next h₂ => rw [h₂] at value; exact (device.trans comma).trans value
  · next h₂ => rw [h₂] at value; exact (device.trans comma).trans value

theorem tasks_block_of_stmts {s : Session}
    (h : s.check (.punct .braceOpen) = true → Tasks s.advance s.advance.stmts.2) :
    Tasks s s.block.2 := by
  rw [block_eq]
  split
  · next brace =>
    have opening := tasks_advance (atEnd_of_check brace (by decide))
    exact (opening.trans (h brace)).trans (tasks_expect _ (by decide))
  · exact s.tasks_expected (.terminal _)

theorem atEnd_errorExpected {s : Session} (go : s.atEnd = false) (expected : String) :
    (s.errorExpected expected).atEnd = false := by
  rwa [atEnd, check, window_errorExpected]

/-- What is no statement is used up, so that no statement takes nothing. -/
theorem tasks_stmt_of_stmts {s : Session} (go : s.atEnd = false)
    (h : s.check (.punct .braceOpen) = true → Tasks s.advance s.advance.stmts.2) :
    Tasks s s.stmt.2 := by
  rw [stmt_eq]
  split
  · exact (tasks_advance go).trans s.advance.tasks_deo
  split
  · exact tasks_block_of_stmts h
  · exact (s.tasks_expected .statement).trans (tasks_advance (atEnd_errorExpected go _))

theorem tasks_stmts (s : Session) : Tasks s s.stmts.2 := by
  induction s using stmts_induction with
  | stop s h => rw [stmts_eq, if_pos h]
  | step s h ihBlock ih =>
    have go : s.atEnd = false := (Bool.or_eq_false_iff.mp h).1
    rw [stmts_eq, h]
    exact (tasks_stmt_of_stmts go ihBlock).trans ih

theorem tasks_block (s : Session) : Tasks s s.block.2 :=
  tasks_block_of_stmts fun _ => s.advance.tasks_stmts

theorem tasks_decl {s : Session} (go : s.atEnd = false) : Tasks s s.decl.2 := by
  unfold decl
  split
  · exact (tasks_advance go).trans s.advance.tasks_block
  · exact (s.tasks_expected .declaration).trans (tasks_advance (atEnd_errorExpected go _))

theorem deeds_recover (s : Session) : Deeds s s.recover := by
  fun_induction recover s with
  | case1 s h => exact .single (.resume s h)
  | case2 s h ih =>
    simp only [Bool.or_eq_true, not_or, Bool.not_eq_true] at h
    exact (tasks_advance h.1).deeds.trans ih

theorem deeds_settle (s : Session) : Deeds s s.settle := by
  unfold settle
  split
  · exact s.deeds_recover
  · exact .refl

/-- Recovery ends in front of a main block or at the end, and recording has started again. -/
theorem recover_spec (s : Session) : s.recover.panic = false ∧
    (s.recover.atEnd || s.recover.check (.keyword .main)) = true := by
  fun_induction recover s with
  | case1 s h => exact ⟨rfl, h⟩
  | case2 s h ih => exact ih

/-- Behind a declaration nothing is held back. -/
theorem panic_settle (s : Session) : s.settle.panic = false := by
  unfold settle
  split
  · exact s.recover_spec.1
  · next free => exact Bool.eq_false_iff.mpr free

theorem deeds_decls (s : Session) : Deeds s s.decls.2 := by
  induction s using decls_induction with
  | stop s h => rw [decls_eq, if_pos h]
  | step s h ih =>
    rw [decls_eq, h]
    exact ((tasks_decl h).deeds.trans s.decl.2.deeds_settle).trans ih

/-! ## Moves -/

/-- One move of a session that does not start to record again. An error is reported at the current
token, or at a literal whose token has just been used up. -/
inductive Work : Session → Session → Prop where
  | advance (s : Session) : Work s s.advance
  | error (s : Session) (message : String) : Work s (s.errorHere message)
  | value (s : Session) (message : String) : Work s (s.advance.error s.current.line message)

/-- One move of a session. Recording starts again in front of a main block and at the end. -/
inductive Move : Session → Session → Prop where
  | work {s s' : Session} : Work s s' → Move s s'
  | resume (s : Session) : (s.atEnd || s.check (.keyword .main)) = true →
      Move s { s with panic := false, history := .recovered :: s.history }

/-- Moves one after the other that do not start to record again. -/
abbrev Works : Session → Session → Prop :=
  Relation.ReflTransGen Work

/-- Moves one after the other. -/
abbrev Moves : Session → Session → Prop :=
  Relation.ReflTransGen Move

theorem Works.moves {s s' : Session} (h : Works s s') : Moves s s' :=
  h.lift id fun _ _ => .work

theorem works_advance (s : Session) : Works s s.advance :=
  .single (.advance s)

theorem moves_advance (s : Session) : Moves s s.advance :=
  s.works_advance.moves

theorem works_errorExpected (s : Session) (expected : String) :
    Works s (s.errorExpected expected) :=
  .single (.error s _)

theorem works_literal (s : Session) : Works s s.literal.2 := by
  unfold literal
  split
  · split
    · exact s.works_advance
    · exact .single (.value s _)
  · split
    · exact s.works_advance
    · exact .single (.value s _)
  · exact s.works_errorExpected _

theorem Task.works {s s' : Session} (h : Task s s') : Works s s' := by
  cases h with
  | advance => exact s.works_advance
  | expected => exact s.works_errorExpected _
  | literal => exact s.works_literal

theorem Tasks.works {s s' : Session} (h : Tasks s s') : Works s s' := by
  induction h with
  | refl => exact .refl
  | tail _ task ih => exact ih.trans task.works

theorem Deeds.moves {s s' : Session} (h : Deeds s s') : Moves s s' := by
  induction h with
  | refl => exact .refl
  | tail _ deed ih =>
    cases deed with
    | task task => exact ih.trans task.works.moves
    | resume main => exact ih.tail (.resume _ main)

section

variable (s : Session)

theorem works_expect (t : Terminal) : Works s (s.expect t).2 := by
  unfold expect
  split
  · exact s.works_advance
  · exact s.works_errorExpected _

theorem works_expr : Works s s.expr.2 :=
  s.tasks_expr.works

theorem works_deo : Works s s.deo.2 :=
  s.tasks_deo.works

theorem works_stmts : Works s s.stmts.2 :=
  s.tasks_stmts.works

theorem works_block : Works s s.block.2 :=
  s.tasks_block.works

theorem works_stmt : Works s s.stmt.2 := by
  rw [stmt_eq]
  split
  · exact s.works_advance.trans (works_deo _)
  split
  · exact s.works_block
  · exact (s.works_errorExpected _).trans (works_advance _)

theorem works_decl : Works s s.decl.2 := by
  unfold decl
  split
  · exact s.works_advance.trans (works_block _)
  · exact (s.works_errorExpected _).trans (works_advance _)

theorem moves_decl : Moves s s.decl.2 :=
  s.works_decl.moves

theorem moves_recover : Moves s s.recover :=
  s.deeds_recover.moves

theorem moves_settle : Moves s s.settle :=
  s.deeds_settle.moves

theorem moves_decls : Moves s s.decls.2 :=
  s.deeds_decls.moves

end

/-! ## Invariants -/

theorem prefix_diagnostics_report (s : Session) (d : Diagnostic) :
    s.diagnostics <+: (s.report d).diagnostics := by
  rw [diagnostics_report]
  split
  · exact List.prefix_rfl
  · exact List.prefix_append _ _

theorem prefix_diagnostics_advance (s : Session) : s.diagnostics <+: s.advance.diagnostics := by
  rw [diagnostics_advance]
  split
  · exact List.prefix_rfl
  · exact List.prefix_append _ _

theorem Move.prefix_diagnostics {s s' : Session} (h : Move s s') :
    s.diagnostics <+: s'.diagnostics := by
  cases h with
  | work work =>
    cases work with
    | advance => exact s.prefix_diagnostics_advance
    | error message => exact s.prefix_diagnostics_report _
    | value message => exact s.prefix_diagnostics_advance.trans (prefix_diagnostics_report _ _)
  | resume =>
    rw [diagnostics_cons _ _ rfl]
    exact List.prefix_rfl

/-- **Diagnostics are never taken back.** -/
theorem Moves.prefix_diagnostics {s s' : Session} (h : Moves s s') :
    s.diagnostics <+: s'.diagnostics := by
  induction h with
  | refl => exact List.prefix_rfl
  | tail _ move ih => exact ih.trans move.prefix_diagnostics

/-- Advancing is all that a session does to its window. -/
theorem Moves.window_slide {P : Window → Prop} (slide : ∀ w, P w → P w.slide) {s s' : Session}
    (h : Moves s s') (start : P s.window) : P s'.window := by
  induction h with
  | refl => exact start
  | tail _ move ih =>
    cases move with
    | work work =>
      cases work with
      | advance => exact slide _ ih
      | error message => rwa [errorHere, error, window_report]
      | value message =>
        rw [error, window_report]
        exact slide _ ih
    | resume => exact ih

/-- All diagnostics are errors, and there is one whenever errors are held back. -/
structure Sound (s : Session) : Prop where
  isError : ∀ d ∈ s.diagnostics, d.severity = .error
  recorded : s.panic = true → s.diagnostics ≠ []

theorem sound_ofSource (source : String) : (ofSource source).Sound :=
  ⟨by simp [ofSource, diagnostics], by simp [ofSource]⟩

theorem Sound.report {s : Session} (h : s.Sound) {d : Diagnostic} (error : d.severity = .error) :
    (s.report d).Sound := by
  constructor
  · intro d' hd'
    rw [diagnostics_report] at hd'
    split at hd'
    · exact h.isError d' hd'
    · rcases List.mem_append.mp hd' with old | new
      · exact h.isError d' old
      · rw [List.mem_singleton.mp new]
        exact error
  · intro _
    rw [diagnostics_report]
    split
    · next panic => exact h.recorded panic
    · simp

theorem Sound.advance {s : Session} (h : s.Sound) : s.advance.Sound := by
  constructor
  · intro d hd
    rw [diagnostics_advance] at hd
    split at hd
    · exact h.isError d hd
    · rcases List.mem_append.mp hd with old | new
      · exact h.isError d old
      · obtain ⟨e, -, rfl⟩ := Option.map_eq_some_iff.mp (Option.mem_toList.mp new)
        rfl
  · intro panic
    rw [diagnostics_advance]
    split
    · next held => exact h.recorded held
    · next free =>
      rw [panic_advance] at panic
      cases errors : s.window.errors with
      | nil => simp [free, errors] at panic
      | cons e es => simp

theorem Sound.of_move {s s' : Session} (h : s.Sound) (move : Move s s') : s'.Sound := by
  cases move with
  | work work =>
    cases work with
    | advance => exact h.advance
    | error message => exact h.report rfl
    | value message => exact h.advance.report rfl
  | resume =>
    have same := diagnostics_cons s.window false (e := .recovered) rfl s.history
    exact ⟨fun d hd => h.isError d (same ▸ hd), by simp⟩

/-- **What a session does keeps it sound.** -/
theorem Sound.of_moves {s s' : Session} (h : s.Sound) (moves : Moves s s') : s'.Sound := by
  induction moves with
  | refl => exact h
  | tail _ move ih => exact ih.of_move move

theorem Sound.panic_eq_false {s : Session} (h : s.Sound) (clean : s.diagnostics = []) :
    s.panic = false := by
  cases panic : s.panic with
  | false => rfl
  | true => exact absurd clean (h.recorded panic)

theorem Sound.hasErrors_iff {s : Session} (h : s.Sound) :
    s.diagnostics.hasErrors = true ↔ s.diagnostics ≠ [] := by
  constructor
  · intro errors clean
    rw [clean] at errors
    cases errors
  · intro reported
    obtain ⟨d, rest, shape⟩ := List.exists_cons_of_ne_nil reported
    have error := h.isError d (by rw [shape]; exact List.mem_cons_self)
    rw [shape]
    simp [Report.hasErrors, Diagnostic.isError, error]

end Session

end DeoLang
