import DeoLang.Proofs.Session.Events

/-!
# Sessions under any operations

* `Node`, `Operation`: what a caller can do with a session, one thing at a time; `Session.perform`.
* `Session.recoveries`: how often reading declarations recovers. `Operation.recoveries` and
  `Session.performRecoveries` say so of an operation and of several.
* `Session.restarts`: how often recording has started again; `restarts_perform`.
* `Controlled`: the order that panic mode keeps among what is reported.
* **`perform_controlled`**: whatever operations a session goes through, in whatever order, this
  order is kept at every point of every operation.
-/

namespace DeoLang

/-- The nodes that can be read. A declaration behind its keyword is a `block`. -/
inductive Node where
  | literal
  | expr
  | deo
  | stmt
  | block
  | decl
  | program
  deriving Repr, DecidableEq

/-- The operations on a session. -/
inductive Operation where
  | advance
  | check (t : Terminal)
  | accept (t : Terminal)
  | expect (t : Terminal)
  | errorExpected (expected : String)
  | errorHere (message : String)
  | error (line : Nat) (message : String)
  | recover
  | read (n : Node)
  deriving Repr, DecidableEq

/-- The session behind a node. -/
def Node.apply (s : Session) : Node → Session
  | literal => s.literal.2
  | expr => s.expr.2
  | deo => s.deo.2
  | stmt => s.stmt.2
  | block => s.block.2
  | decl => s.decl.2
  | program => s.program.2

/-- The session behind an operation. -/
def Operation.apply (s : Session) : Operation → Session
  | advance => s.advance
  | check _ => s
  | accept t => (s.accept t).2
  | expect t => (s.expect t).2
  | errorExpected expected => s.errorExpected expected
  | errorHere message => s.errorHere message
  | error line message => s.error line message
  | recover => s.recover
  | read n => n.apply s

namespace Session

/-- The session behind operations, one after the other. -/
def perform (s : Session) (ops : List Operation) : Session :=
  ops.foldl Operation.apply s

/-- How often reading declarations recovers: behind each one that left errors held back. -/
def recoveries (s : Session) : Nat :=
  if _h : s.atEnd then 0 else s.decl.2.panic.toNat + s.decl.2.settle.recoveries
termination_by s.pending
decreasing_by
  simp only [Bool.not_eq_true] at _h
  exact Nat.lt_of_le_of_lt s.decl.2.pending_settle_le (pending_decl_lt _h)

end Session

/-- How often an operation recovers. Of the nodes only a program does. -/
def Operation.recoveries (s : Session) : Operation → Nat
  | recover => 1
  | read .program => s.recoveries
  | _ => 0

namespace Session

/-- How often operations recover, one after the other. -/
def performRecoveries (s : Session) : List Operation → Nat
  | [] => 0
  | op :: ops => op.recoveries s + (op.apply s).performRecoveries ops

/-! ## Operations are acts -/

theorem works_accept (s : Session) (t : Terminal) : Works s (s.accept t).2 := by
  unfold accept
  split
  · exact s.works_advance
  · exact .refl

theorem moves_program (s : Session) : Moves s s.program.2 :=
  s.moves_decls.trans (works_expect _ _).moves

theorem acts_node (s : Session) (n : Node) : Acts s (n.apply s) := by
  cases n with
  | literal => exact s.works_literal.moves.acts
  | expr => exact s.works_expr.moves.acts
  | deo => exact s.works_deo.moves.acts
  | stmt => exact s.works_stmt.moves.acts
  | block => exact s.works_block.moves.acts
  | decl => exact s.moves_decl.acts
  | program => exact s.moves_program.acts

theorem acts_operation (s : Session) (op : Operation) : Acts s (op.apply s) := by
  cases op with
  | advance => exact .single (.advance s)
  | check t => exact .refl
  | accept t => exact (s.works_accept t).moves.acts
  | expect t => exact (s.works_expect t).moves.acts
  | errorExpected expected => exact (s.works_errorExpected expected).moves.acts
  | errorHere message => exact .single (.error s _ _)
  | error line message => exact .single (.error s _ _)
  | recover => exact s.moves_recover.acts
  | read n => exact s.acts_node n

theorem acts_perform (s : Session) (ops : List Operation) : Acts s (s.perform ops) := by
  induction ops generalizing s with
  | nil => exact .refl
  | cons op ops ih => exact (s.acts_operation op).trans (ih _)

/-! ## Restarts -/

/-- How often recording has started again. -/
def restarts (s : Session) : Nat :=
  s.events.count .recovered

theorem ofReport_ne_recovered (panic : Bool) (d : Diagnostic) :
    (Event.ofReport panic d == .recovered) = false := by
  cases panic <;> rfl

theorem restarts_report (s : Session) (d : Diagnostic) : (s.report d).restarts = s.restarts :=
  countP_events_report ofReport_ne_recovered s d

theorem restarts_advance (s : Session) : s.advance.restarts = s.restarts :=
  countP_events_advance (fun _ => rfl) ofReport_ne_recovered s

theorem restarts_resume (s : Session) :
    (mk s.window false (.recovered :: s.history)).restarts = s.restarts + 1 := by
  rw [restarts, events_cons, List.count_append]
  rfl

theorem Works.restarts_eq {s s' : Session} (h : Works s s') : s'.restarts = s.restarts := by
  induction h with
  | refl => rfl
  | tail _ work ih =>
    rw [← ih]
    cases work with
    | advance => exact restarts_advance _
    | error message => exact restarts_report _ _
    | value message => exact (restarts_report _ _).trans (restarts_advance _)

theorem restarts_recover (s : Session) : s.recover.restarts = s.restarts + 1 := by
  fun_induction recover s with
  | case1 s h => exact s.restarts_resume
  | case2 s h ih => rw [ih, restarts_advance]

theorem restarts_settle (s : Session) : s.settle.restarts = s.restarts + s.panic.toNat := by
  unfold settle
  split
  · next held => rw [restarts_recover, held]; rfl
  · next free => rw [Bool.not_eq_true] at free; rw [free]; rfl

theorem restarts_decls (s : Session) : s.decls.2.restarts = s.restarts + s.recoveries := by
  induction s using decls_induction with
  | stop s h => rw [decls_eq, if_pos h, recoveries, dif_pos h]; rfl
  | step s h ih =>
    rw [decls_eq, recoveries]
    simp only [h, Bool.false_eq_true, if_false, dite_false]
    rw [ih, restarts_settle, s.works_decl.restarts_eq, Nat.add_assoc]

theorem restarts_operation (s : Session) (op : Operation) :
    (op.apply s).restarts = s.restarts + op.recoveries s := by
  cases op with
  | advance => exact s.restarts_advance
  | check t => rfl
  | accept t => exact (s.works_accept t).restarts_eq
  | expect t => exact (s.works_expect t).restarts_eq
  | errorExpected expected => exact s.restarts_report _
  | errorHere message => exact s.restarts_report _
  | error line message => exact s.restarts_report _
  | recover => exact s.restarts_recover
  | read n =>
    cases n with
    | literal => exact s.works_literal.restarts_eq
    | expr => exact s.works_expr.restarts_eq
    | deo => exact s.works_deo.restarts_eq
    | stmt => exact s.works_stmt.restarts_eq
    | block => exact s.works_block.restarts_eq
    | decl => exact s.works_decl.restarts_eq
    | program => exact (works_expect _ _).restarts_eq.trans s.restarts_decls

theorem restarts_perform (s : Session) (ops : List Operation) :
    (s.perform ops).restarts = s.restarts + s.performRecoveries ops := by
  induction ops generalizing s with
  | nil => rfl
  | cons op ops ih =>
    exact (ih (op.apply s)).trans (by rw [restarts_operation, performRecoveries, Nat.add_assoc])

end Session

/-! ## Panic mode -/

/-- At each point all diagnostics are errors, there is one whenever errors are held back, and there
is at most one more than there were recoveries. -/
structure PanicPoint (panic : Bool) (report : Report) (recoveries : Nat) : Prop where
  isError : ∀ d ∈ report, d.severity = .error
  recorded : panic = true → report ≠ []
  length_le : report.length ≤ 1 + recoveries

/-- From one point to the next nothing is added while errors are held back. Otherwise a diagnostic
can be added at the end, and then errors are held back. -/
structure PanicStep (panic : Bool) (report : Report) (panic' : Bool) (report' : Report) : Prop where
  held : panic = true → report' = report
  added : report' ≠ report →
    panic = false ∧ panic' = true ∧ ∃ d, report' = report ++ [d]

theorem Orderly.panicPoint {es : List Event} (h : Orderly false es) :
    PanicPoint (heldBehind false es) (reported es) (es.count .recovered) := by
  refine ⟨severity_of_orderly h, fun held => ?_, ?_⟩
  · exact (exists_reported_of_heldBehind held).resolve_left Bool.false_ne_true
  · have le := h.length_le
    rw [Bool.not_false, Bool.toNat_true] at le
    omega

/-- Without a restart there is room for one diagnostic, and only where none are held back. -/
theorem Orderly.panicStep {panic : Bool} {es : List Event} (h : Orderly panic es)
    (unrecovered : es.count .recovered = 0) (report : Report) :
    PanicStep panic report (heldBehind panic es) (report ++ reported es) := by
  have le := h.length_le
  rw [unrecovered] at le
  constructor
  · rintro rfl
    rw [Bool.not_true, Bool.toNat_false] at le
    rw [List.eq_nil_of_length_eq_zero (l := reported es) (by omega), List.append_nil]
  · intro ne
    have added : reported es ≠ [] := fun empty => ne (by rw [empty, List.append_nil])
    have pos := List.length_pos_iff.mpr added
    cases panic with
    | true => rw [Bool.not_true, Bool.toNat_false] at le; omega
    | false =>
      rw [Bool.not_false, Bool.toNat_true] at le
      obtain ⟨d, single⟩ := List.length_eq_one_iff.mp (show (reported es).length = 1 by omega)
      refine ⟨rfl, ?_, d, by rw [single]⟩
      cases held : heldBehind false es with
      | true => rfl
      | false => rw [held, Bool.not_false, Bool.toNat_true] at le; omega

/-- What happens next adds at most one error. A restart adds nothing. -/
theorem panicStep_singleton {panic : Bool} {e : Event} (h : Orderly panic [e]) (report : Report) :
    PanicStep panic report (heldBehind panic [e]) (report ++ reported [e]) := by
  by_cases restart : e = .recovered
  · have same : report ++ reported [e] = report := by
      rw [restart]
      exact List.append_nil report
    rw [same]
    exact ⟨fun _ => rfl, fun ne => absurd rfl ne⟩
  · exact h.panicStep (List.count_eq_zero.mpr fun mem => restart (List.mem_singleton.mp mem).symm) _

namespace Session

/-- The session `s` has kept to panic mode all the time, with `calls` recoveries so far. -/
structure Controlled (calls : Nat) (s : Session) : Prop where
  here : PanicPoint s.panic s.diagnostics calls
  grows : ∀ op : Operation, s.diagnostics <+: (op.apply s).diagnostics
  next : ∀ op : Operation, op.recoveries s = 0 →
    PanicStep s.panic s.diagnostics (op.apply s).panic (op.apply s).diagnostics
  /-- What has happened tells the state at each point of the operations so far. -/
  state : s.panic = heldBehind false s.events ∧ s.diagnostics = reported s.events ∧
    calls = s.events.count .recovered
  points : ∀ before, before <+: s.events →
    PanicPoint (heldBehind false before) (reported before) (before.count .recovered)
  steps : ∀ before e, before ++ [e] <+: s.events →
    PanicStep (heldBehind false before) (reported before)
      (heldBehind false (before ++ [e])) (reported (before ++ [e]))

/-- An operation adds to what was reported, and without a recovery at most one error. -/
theorem panicStep_operation (s : Session) (op : Operation) :
    s.diagnostics <+: (op.apply s).diagnostics ∧ (op.recoveries s = 0 →
      PanicStep s.panic s.diagnostics (op.apply s).panic (op.apply s).diagnostics) := by
  obtain ⟨es, events, orderly, panic⟩ := (s.acts_operation op).exists_events
  have diagnostics : (op.apply s).diagnostics = s.diagnostics ++ reported es := by
    rw [diagnostics_eq_reported, events, reported_append, diagnostics_eq_reported]
  refine ⟨⟨_, diagnostics.symm⟩, fun unrecovered => ?_⟩
  have restarts := s.restarts_operation op
  rw [unrecovered, Session.restarts, Session.restarts, events, List.count_append] at restarts
  rw [diagnostics, panic]
  exact orderly.panicStep (by omega) _

end Session

/-- **Every run keeps to panic mode.** Whatever a session is made to do, at each point of each
operation diagnostics are only added at the end, all of them are errors, none is added while errors
are held back, adding one holds back those that follow, and there is at most one more than there
were recoveries. -/
theorem perform_controlled (source : String) (ops : List Operation) :
    ((Session.ofSource source).perform ops).Controlled
      ((Session.ofSource source).performRecoveries ops) := by
  have calls : (Session.ofSource source).performRecoveries ops =
      ((Session.ofSource source).perform ops).events.count .recovered := by
    have restarts := (Session.ofSource source).restarts_perform ops
    exact (Nat.zero_add _).symm.trans restarts.symm
  obtain ⟨es, events, orderly, panic⟩ :=
    ((Session.ofSource source).acts_perform ops).exists_events
  generalize (Session.ofSource source).perform ops = s at *
  obtain rfl : s.events = es := events
  have points : ∀ before, before <+: s.events → Orderly false before := by
    rintro before ⟨after, whole⟩
    exact (orderly_append.mp (whole ▸ orderly)).1
  have here : PanicPoint s.panic s.diagnostics (s.events.count .recovered) := by
    rw [panic]
    exact orderly.panicPoint
  exact {
    here := calls ▸ here
    grows := fun op => (s.panicStep_operation op).1
    next := fun op => (s.panicStep_operation op).2
    state := ⟨panic, rfl, calls⟩
    points := fun before h => (points before h).panicPoint
    steps := fun before e h => by
      rw [heldBehind_append, reported_append]
      exact panicStep_singleton (orderly_append.mp (points _ h)).2 _ }

end DeoLang
