import Mathlib
import DeoLang.Proofs.Program.Findings

/-!
# What a review reports

* `Expr.divisors`, `located`: the divisors in an expression, and the outputs of a body with the
  line of the innermost block around each.
* `Level.report`, `divisionReport`, `deviceReport`, `Block.report`, `Program.report`: the
  diagnostics that are due for the parts of a program, with their wording.
* `filterMap_judge_findings`, `filterMap_judge_bodyFindings`: the findings of a review come to these
  diagnostics.
* **`review_eq_report`**: a review gives the diagnostics that are due, in their order.
-/

namespace DeoLang

/-- The divisors in an expression. That of a division comes behind those in its operands. -/
def Expr.divisors : Expr → List Expr
  | literal _ => []
  | binary op lhs rhs => lhs.divisors ++ rhs.divisors ++ if op = .div then [rhs] else []

/-- The outputs of a block at `line`, each with the line of the innermost block around it. -/
def located (line : Nat) : List Stmt → List (Nat × Output)
  | [] => []
  | .deo device value :: rest => (line, ⟨device, value⟩) :: located line rest
  | .block inner body :: rest => located inner body ++ located line rest

/-- The diagnostic of a check at a level. -/
def Level.report (line : Nat) (message : String) : Level → Report
  | allow => []
  | warn => [⟨.warning, line, message⟩]
  | deny => [⟨.error, line, message⟩]

/-- An error for each divisor in an expression that has the value zero. -/
def divisionReport (line : Nat) (e : Expr) : Report :=
  (e.divisors.filter fun divisor => divisor.eval = .ok 0).map fun _ =>
    ⟨.error, line, "division by zero in constant expression"⟩

/-- The diagnostic for a device whose value, read as unsigned, is no byte. -/
def deviceReport (policy : Policy) (line : Nat) (device : Expr) : Report :=
  match device.eval with
  | .ok v =>
    if 255 < v.toNat then
      policy.deviceRange.report line ("port 0x" ++ String.ofList (hexFixed 4 v.toNat) ++
        " does not fit in a byte and will be truncated to 0x" ++
        String.ofList (hexFixed 2 (v.toNat % 256)))
    else []
  | .error _ => []

/-- The diagnostics for an output in a block at `line`. -/
def Output.report (policy : Policy) (line : Nat) (o : Output) : Report :=
  divisionReport line o.device ++ divisionReport line o.value ++ deviceReport policy line o.device

/-- The diagnostics for the statements of a main block. -/
def Block.report (policy : Policy) (b : Block) : Report :=
  (located b.line b.body).flatMap fun place => place.2.report policy place.1

/-- The diagnostic for a main block behind the first one, which is at the line `first`. -/
def duplicateReport (policy : Policy) (first : Nat) (b : Block) : Report :=
  policy.duplicateMain.report b.line
    ("duplicate main block, first defined at line " ++ decimal first)

/-- The diagnostics for a program. -/
def Program.report (policy : Policy) (p : Program) : Report :=
  match p.mains with
  | [] => []
  | first :: later => first.report policy ++
    later.flatMap fun b => duplicateReport policy first.line b ++ b.report policy

/-! ## From findings to diagnostics -/

section

variable (policy : Policy)

theorem filterMap_judge_singleton (line : Nat) (cause : Cause) :
    [Finding.mk line cause].filterMap policy.judge =
      (policy.level cause).report line cause.message := by
  rw [List.filterMap_cons, List.filterMap_nil, Policy.judge]
  cases policy.level cause <;> rfl

theorem divisionReport_binary (line : Nat) (op : BinOp) (lhs rhs : Expr) :
    divisionReport line (.binary op lhs rhs) =
      divisionReport line lhs ++ divisionReport line rhs ++
        if op = .div ∧ rhs.value? = some 0 then
          [⟨.error, line, "division by zero in constant expression"⟩]
        else [] := by
  unfold divisionReport
  rw [Expr.divisors, List.filter_append, List.filter_append, List.map_append, List.map_append]
  refine congrArg _ ?_
  by_cases division : op = .div
  · rw [if_pos division, List.filter_singleton]
    by_cases zero : rhs.eval = .ok 0
    · rw [if_pos ⟨division, value?_eq_some_iff.mpr zero⟩, decide_eq_true zero]
      rfl
    · rw [if_neg fun h => zero (value?_eq_some_iff.mp h.2), decide_eq_false zero]
      rfl
  · rw [if_neg division, if_neg fun h => division h.1]
    rfl

theorem filterMap_judge_findings (line : Nat) (e : Expr) :
    (e.findings line).filterMap policy.judge = divisionReport line e := by
  induction e with
  | literal value => rfl
  | binary op lhs rhs ihl ihr =>
    rw [Expr.findings, List.filterMap_append, List.filterMap_append, ihl, ihr,
      divisionReport_binary]
    split
    · rw [filterMap_judge_singleton]
      rfl
    · rw [List.filterMap_nil]

theorem toNat_low (w : Word) : w.low.toNat = w.toNat % 256 := by
  simp [Word.low]

theorem message_wideDevice (v : Word) : (Cause.wideDevice v).message =
    "port 0x" ++ String.ofList (hexFixed 4 v.toNat) ++
      " does not fit in a byte and will be truncated to 0x" ++
      String.ofList (hexFixed 2 (v.toNat % 256)) :=
  congrArg (fun low => "port 0x" ++ String.ofList (hexFixed 4 v.toNat) ++
    " does not fit in a byte and will be truncated to 0x" ++ String.ofList (hexFixed 2 low))
    (toNat_low v)

theorem filterMap_judge_deviceFindings (line : Nat) (device : Expr) :
    (deviceFindings line device).filterMap policy.judge = deviceReport policy line device := by
  unfold deviceFindings deviceReport
  cases value : device.eval with
  | error e => simp [Expr.value?, value, Except.toOption]
  | ok v =>
    rw [value?_eq_some_iff.mpr value]
    dsimp only
    split
    · exact (filterMap_judge_singleton policy line (.wideDevice v)).trans
        (congrArg (policy.deviceRange.report line ·) (message_wideDevice v))
    · rw [List.filterMap_nil]

theorem filterMap_judge_output (line : Nat) (o : Output) :
    (o.findings line).filterMap policy.judge = o.report policy line := by
  rw [Output.findings, List.filterMap_append, List.filterMap_append, filterMap_judge_findings,
    filterMap_judge_findings, filterMap_judge_deviceFindings, Output.report]

theorem filterMap_judge_bodyFindings (line : Nat) (body : List Stmt) :
    (bodyFindings line body).filterMap policy.judge =
      (located line body).flatMap fun place => place.2.report policy place.1 := by
  induction body using body_induction generalizing line with
  | nil => simp [bodyFindings, located]
  | deo device value rest ih =>
    rw [bodyFindings, List.filterMap_append, filterMap_judge_output, ih, located,
      List.flatMap_cons]
  | block inner body rest ihb ihr =>
    rw [bodyFindings, List.filterMap_append, ihb, ihr, located, List.flatMap_append]

theorem filterMap_judge_laterFindings (first : Nat) (b : Block) :
    (laterFindings first b).filterMap policy.judge =
      duplicateReport policy first b ++ b.report policy := by
  rw [laterFindings, ← List.singleton_append, List.filterMap_append, filterMap_judge_singleton,
    filterMap_judge_bodyFindings]
  rfl

/-- **The findings of a program come to the diagnostics that are due.** -/
theorem filterMap_judge_program (p : Program) :
    p.findings.filterMap policy.judge = p.report policy := by
  rw [findings_eq, Program.report]
  cases p.mains with
  | nil => rfl
  | cons first later =>
    rw [mainsFindings, List.filterMap_append, filterMap_judge_bodyFindings, List.filterMap_flatMap]
    simp only [filterMap_judge_laterFindings]
    rfl

end

theorem hasErrors_eq_true_iff {report : Report} :
    report.hasErrors = true ↔ ∃ d ∈ report, d.severity = .error := by
  simp [Report.hasErrors, Diagnostic.isError]

theorem hasErrors_eq_false_iff {report : Report} :
    report.hasErrors = false ↔ ∀ d ∈ report, d.severity = .warning := by
  have either : ∀ d : Diagnostic, d.severity = .warning ↔ ¬d.severity = .error := fun d => by
    cases d.severity <;> decide
  rw [Bool.eq_false_iff, ne_eq, hasErrors_eq_true_iff]
  simp only [either, not_exists, not_and]

theorem review_eq_ite (policy : Policy) (p : Program) : p.review policy =
    if (p.report policy).hasErrors then .error (p.report policy) else .ok (p.report policy) := by
  rw [← filterMap_judge_program]
  rfl

/-- **A review reports what is due, in order.** It goes through the main blocks. One behind the
first is a duplicate, named with its own line and that of the first. Then come its outputs, each
with the line of the innermost block around it: an error for each divisor of the device and then of
the value that is zero, and the device if it is no byte. What a level allows is left out, and the
report is an error exactly when it contains one. -/
theorem review_eq_report (policy : Policy) (p : Program) (report : Report) :
    (p.review policy = .error report ↔
      report = p.report policy ∧ ∃ d ∈ report, d.severity = .error) ∧
    (p.review policy = .ok report ↔
      report = p.report policy ∧ ∀ d ∈ report, d.severity = .warning) := by
  rw [← hasErrors_eq_true_iff, ← hasErrors_eq_false_iff, review_eq_ite]
  cases errors : (p.report policy).hasErrors with
  | true =>
    rw [if_pos rfl]
    refine ⟨⟨?_, ?_⟩, iff_of_false (by rintro ⟨⟩) ?_⟩
    · rintro ⟨⟩
      exact ⟨rfl, errors⟩
    · rintro ⟨rfl, -⟩
      rfl
    · rintro ⟨rfl, clean⟩
      rw [errors] at clean
      cases clean
  | false =>
    rw [if_neg Bool.false_ne_true]
    refine ⟨iff_of_false (by rintro ⟨⟩) ?_, ⟨?_, ?_⟩⟩
    · rintro ⟨rfl, bad⟩
      rw [errors] at bad
      cases bad
    · rintro ⟨⟩
      exact ⟨rfl, errors⟩
    · rintro ⟨rfl, -⟩
      rfl

example : located 1 [.block 2 [.deo (.literal 3) (.literal 4)], .deo (.literal 5) (.literal 6)] =
    [(2, ⟨.literal 3, .literal 4⟩), (1, ⟨.literal 5, .literal 6⟩)] := by
  cbv

end DeoLang
