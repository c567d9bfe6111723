import DeoLang.Proofs.Program.Levels

/-!
# Divisions by zero

* `Expr.parts`, `exists_eval_of_mem_parts`: the subexpressions of an expression, all of which have a
  value if it has one.
* `Diagnostic.IsDivisionByZero`: the error for a division by zero, known by its wording.
* `Reviewer.report`: what a reviewer has reported so far.
* `exists_isDivisionByZero_iff`: such an error comes from a finding of this cause.
* **`division_by_zero`**: a review reports divisions by zero just where an operand has no value.
-/

namespace DeoLang

/-- The subexpressions of an expression, with the expression itself at the end. -/
def Expr.parts : Expr → List Expr
  | literal value => [literal value]
  | binary op lhs rhs => lhs.parts ++ rhs.parts ++ [binary op lhs rhs]

/-- The expressions of an output. -/
def Output.operands (o : Output) : List Expr :=
  [o.device, o.value]

/-- The diagnostic is the error for a division by zero. -/
def Diagnostic.IsDivisionByZero (d : Diagnostic) : Prop :=
  d.severity = .error ∧ d.message = "division by zero in constant expression"

/-- What a reviewer has reported so far under a policy. -/
def Reviewer.report (policy : Policy) (r : Reviewer) : Report :=
  r.found.reverse.filterMap policy.judge

/-! ## Values -/

theorem eval_eq_error_iff {e : Expr} :
    e.eval = .error .divisionByZero ↔ ¬∃ v, e.eval = .ok v := by
  cases e.eval with
  | ok v => simp
  | error err => cases err; simp

/-- An evaluation ends at the first failure, so a value needs one for every subexpression. -/
theorem exists_eval_of_mem_parts {e : Expr} (h : ∃ v, e.eval = .ok v) {part : Expr}
    (mem : part ∈ e.parts) : ∃ v, part.eval = .ok v := by
  induction e with
  | literal value =>
    rw [List.mem_singleton.mp mem]
    exact h
  | binary op lhs rhs ihl ihr =>
    obtain ⟨v, hv⟩ := h
    have left : ∃ a, lhs.eval = .ok a := by
      cases ha : lhs.eval with
      | ok a => exact ⟨a, rfl⟩
      | error err => simp [Expr.eval, ha] at hv
    have right : ∃ b, rhs.eval = .ok b := by
      obtain ⟨a, ha⟩ := left
      cases hb : rhs.eval with
      | ok b => exact ⟨b, rfl⟩
      | error err => simp [Expr.eval, ha, hb] at hv
    simp only [Expr.parts, List.mem_append, List.mem_singleton] at mem
    rcases mem with (mem | mem) | rfl
    · exact ihl left mem
    · exact ihr right mem
    · exact ⟨v, hv⟩

/-! ## Reports -/

theorem message_eq_iff {cause : Cause} :
    cause.message = "division by zero in constant expression" ↔ cause = .divisionByZero := by
  constructor
  · intro same
    cases cause with
    | divisionByZero => rfl
    | duplicateMain first =>
      have words := Cause.prefix_message_duplicateMain first
      rw [same] at words
      exact absurd words (by decide)
    | wideDevice device =>
      have words := Cause.prefix_message_wideDevice device
      rw [same] at words
      exact absurd words (by decide)
  · rintro rfl
    rfl

section

variable {policy : Policy}

theorem exists_isDivisionByZero_iff {fs : List Finding} :
    (∃ d ∈ fs.filterMap policy.judge, d.IsDivisionByZero) ↔
      ∃ f ∈ fs, f.cause = .divisionByZero := by
  constructor
  · rintro ⟨d, mem, -, message⟩
    obtain ⟨f, hf, judged⟩ := List.mem_filterMap.mp mem
    have same : d.message = f.cause.message := by
      unfold Policy.judge at judged
      split at judged <;> cases judged <;> rfl
    exact ⟨f, hf, message_eq_iff.mp (same.symm.trans message)⟩
  · rintro ⟨⟨line, cause⟩, hf, rfl⟩
    exact ⟨⟨.error, line, _⟩, List.mem_filterMap.mpr ⟨_, hf, rfl⟩, rfl, rfl⟩

theorem report_append (r : Reviewer) (fs : List Finding) :
    (r.append fs).report policy = r.report policy ++ fs.filterMap policy.judge := by
  simp [Reviewer.report, Reviewer.append]

theorem exists_report_check (line : Nat) (r : Reviewer) (e : Expr) :
    ∃ added, (e.check line r).report policy = r.report policy ++ added ∧
      ((∃ d ∈ added, d.IsDivisionByZero) ↔ e.eval = .error .divisionByZero) := by
  refine ⟨(e.findings line).filterMap policy.judge, ?_, ?_⟩
  · rw [check_eq_append, report_append]
  · rw [exists_isDivisionByZero_iff, exists_mem_findings_iff, eval_eq_error_iff]
    exact and_iff_right rfl

theorem causes_divisionByZero_iff {o : Output} :
    o.Causes .divisionByZero ↔ ∃ e ∈ o.operands, ¬∃ v, e.eval = .ok v := by
  rw [Output.Causes, Classical.not_and_iff_not_or_not]
  simp [Output.operands]

theorem exists_mem_recorded_iff (p : Program) :
    (∃ d ∈ p.recorded policy, d.IsDivisionByZero) ↔
      ∃ o ∈ p.outputs, ∃ e ∈ o.operands, ¬∃ v, e.eval = .ok v := by
  rw [recorded_eq_filterMap_judge, exists_isDivisionByZero_iff, exists_mem_findings_program_iff]
  simp only [causes_divisionByZero_iff]
  constructor
  · rintro (operand | ⟨first, later, -, -, cause⟩)
    · exact operand
    · cases cause
  · exact .inl

variable (policy)

/-- **A review reports divisions by zero just where an operand has no value.** Whatever was reviewed
before it, the visit of an expression reports such an error exactly when the expression has no
value. So a program is told of one exactly when some operand in it has none, whatever the policy
says of other findings, and in a program that passes each subexpression of each operand has one. -/
theorem division_by_zero :
    (∀ (line : Nat) (r : Reviewer) (e : Expr),
      ∃ added, (e.check line r).report policy = r.report policy ++ added ∧
        ((∃ d ∈ added, d.IsDivisionByZero) ↔ e.eval = .error .divisionByZero)) ∧
    ∀ p : Program,
      ((∃ d ∈ p.recorded policy, d.IsDivisionByZero) ↔
        ∃ o ∈ p.outputs, ∃ e ∈ o.operands, ¬∃ v, e.eval = .ok v) ∧
      ∀ warnings, p.review policy = .ok warnings →
        ∀ o ∈ p.outputs, ∀ e ∈ o.operands, ∀ part ∈ e.parts, ∃ v, part.eval = .ok v := by
  refine ⟨exists_report_check, fun p => ⟨exists_mem_recorded_iff p, ?_⟩⟩
  intro warnings passed o ho e he part mem
  obtain ⟨device, value⟩ := exists_eval_of_review passed ho
  have operand : ∃ v, e.eval = .ok v := by
    simp only [Output.operands, List.mem_cons, List.not_mem_nil, or_false] at he
    rcases he with rfl | rfl
    · exact device
    · exact value
  exact exists_eval_of_mem_parts operand mem

end

/-- A quotient by a sum that wraps around to two. -/
def wrappedQuotient : Expr :=
  .binary .div (.literal 10) (.binary .add (.literal 65535) (.literal 3))

theorem division_by_zero_wrappedQuotient :
    (Program.mk [⟨1, [.block 2 [.deo (.literal 24) wrappedQuotient]]⟩]).review .default = .ok [] ∧
      ∃ v, (Expr.binary .add (.literal 65535) (.literal 3)).eval = .ok v := by
  let p : Program := ⟨[⟨1, [.block 2 [.deo (.literal 24) wrappedQuotient]]⟩]⟩
  have passed : p.review .default = .ok [] := by cbv
  have output : ⟨.literal 24, wrappedQuotient⟩ ∈ p.outputs := by
    simp [p, Program.outputs, Block.outputs]
  have operand : wrappedQuotient ∈ Output.operands ⟨.literal 24, wrappedQuotient⟩ := by
    simp [Output.operands]
  have divisor : .binary .add (.literal 65535) (.literal 3) ∈ wrappedQuotient.parts := by
    simp [wrappedQuotient, Expr.parts]
  exact ⟨passed, ((division_by_zero .default).2 p).2 [] passed _ output _ operand _ divisor⟩

end DeoLang
