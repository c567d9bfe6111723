import Mathlib.Data.List.Basic
import DeoLang.Program.Review
import DeoLang.Proofs.Program.Outputs

/-!
# The findings of a review

* `Expr.findings`, `deviceFindings`, `bodyFindings`, `mainsFindings`: the findings in the parts of
  a program as lists, in the order of the source.
* **`findings_eq`**: a review finds just these.
* **`Expr.findings_eq_nil_iff`**: an expression without findings is one that has a value.
* `Output.Causes`, **`exists_mem_findings_program_iff`**: the causes of findings, by the values of
  the operands and the number of main blocks.
* `exists_review_eq_error_iff`: when a program fails its review.
* `exists_eval_of_review`: every operand in a program that passes its review has a value.
-/

namespace DeoLang

/-- The findings in an expression of a block at `line`: one for each division by zero. -/
def Expr.findings (line : Nat) : Expr → List Finding
  | literal _ => []
  | binary op lhs rhs =>
    lhs.findings line ++ rhs.findings line ++
      if op = .div ∧ rhs.value? = some 0 then [⟨line, .divisionByZero⟩] else []

/-- The finding about a device that is no byte. -/
def deviceFindings (line : Nat) (device : Expr) : List Finding :=
  match device.value? with
  | some value => if 255 < value.toNat then [⟨line, .wideDevice value⟩] else []
  | none => []

/-- The findings in an output of a block at `line`. -/
def Output.findings (line : Nat) (o : Output) : List Finding :=
  o.device.findings line ++ o.value.findings line ++ deviceFindings line o.device

/-- The findings in the statements of a block at `line`. -/
def bodyFindings (line : Nat) : List Stmt → List Finding
  | [] => []
  | .deo device value :: rest =>
    (Output.mk device value).findings line ++ bodyFindings line rest
  | .block inner body :: rest => bodyFindings inner body ++ bodyFindings line rest

/-- The findings in a main block behind the first one. -/
def laterFindings (first : Nat) (b : Block) : List Finding :=
  ⟨b.line, .duplicateMain first⟩ :: bodyFindings b.line b.body

/-- The findings in main blocks. All but the first one are duplicates. -/
def mainsFindings : List Block → List Finding
  | [] => []
  | first :: later => bodyFindings first.line first.body ++ later.flatMap (laterFindings first.line)

namespace Reviewer

/-- The reviewer with more findings, oldest first. -/
def append (r : Reviewer) (fs : List Finding) : Reviewer :=
  { r with found := fs.reverse ++ r.found }

@[simp] theorem append_nil (r : Reviewer) : r.append [] = r := rfl

@[simp] theorem append_append (r : Reviewer) (fs gs : List Finding) :
    (r.append fs).append gs = r.append (fs ++ gs) := by
  simp [append]

theorem note_eq_append (r : Reviewer) (line : Nat) (cause : Cause) :
    r.note line cause = r.append [⟨line, cause⟩] := rfl

end Reviewer

theorem check_eq_append (e : Expr) (line : Nat) (r : Reviewer) :
    e.check line r = r.append (e.findings line) := by
  induction e generalizing r with
  | literal value => rfl
  | binary op lhs rhs ihl ihr =>
    simp only [Expr.check, Expr.findings, ihl, ihr, Reviewer.append_append]
    split <;> simp [Reviewer.note_eq_append]

theorem checkDevice_eq_append (line : Nat) (device : Expr) (r : Reviewer) :
    checkDevice line device r = r.append (deviceFindings line device) := by
  unfold checkDevice deviceFindings
  cases device.value? with
  | none => rfl
  | some value => by_cases h : 255 < value.toNat <;> simp [h, Reviewer.note_eq_append]

theorem checkBody_eq_append (body : List Stmt) (line : Nat) (r : Reviewer) :
    checkBody line body r = r.append (bodyFindings line body) := by
  induction body using body_induction generalizing line r with
  | nil => simp [checkBody, bodyFindings]
  | deo device value rest ih =>
    rw [checkBody, check_eq_append, check_eq_append, checkDevice_eq_append, ih, bodyFindings]
    simp only [Output.findings, Reviewer.append_append, List.append_assoc]
  | block inner body rest ihb ihr =>
    rw [checkBody, ihb, ihr, bodyFindings, Reviewer.append_append]

theorem check_later_eq_append (b : Block) {r : Reviewer} {first : Nat} (h : r.first = some first) :
    b.check r = r.append (laterFindings first b) := by
  rw [Block.check, checkBody_eq_append]
  simp [Reviewer.enterMain, h, laterFindings, Reviewer.note_eq_append]

theorem foldl_check_later (later : List Block) {r : Reviewer} {first : Nat}
    (h : r.first = some first) :
    later.foldl (fun r (b : Block) => b.check r) r =
      r.append (later.flatMap (laterFindings first)) := by
  induction later generalizing r with
  | nil => rfl
  | cons b later ih =>
    rw [List.foldl_cons, check_later_eq_append b h, ih (by exact h), Reviewer.append_append]
    rfl

/-- **A review finds the findings of the main blocks.** -/
theorem findings_eq (p : Program) : p.findings = mainsFindings p.mains := by
  unfold Program.findings
  cases p.mains with
  | nil => rfl
  | cons first later =>
    have enter : first.check .empty =
        (⟨some first.line, []⟩ : Reviewer).append (bodyFindings first.line first.body) :=
      checkBody_eq_append _ _ _
    have rest := foldl_check_later later
      (r := (⟨some first.line, []⟩ : Reviewer).append (bodyFindings first.line first.body)) rfl
    rw [List.foldl_cons, enter, rest]
    simp [Reviewer.append, mainsFindings]

/-! ## Divisions by zero -/

theorem apply_eq_error_iff (op : BinOp) (a b : Word) (e : EvalError) :
    op.apply a b = .error e ↔ op = .div ∧ b = 0 := by
  cases op <;> simp [BinOp.apply]

theorem apply_eq_ok_of_ne {op : BinOp} {a b : Word} (h : ¬(op = .div ∧ b = 0)) :
    ∃ v, op.apply a b = .ok v := by
  cases hv : op.apply a b with
  | ok v => exact ⟨v, rfl⟩
  | error e => exact absurd ((apply_eq_error_iff op a b e).mp hv) h

theorem value?_eq_some_iff {e : Expr} {v : Word} : e.value? = some v ↔ e.eval = .ok v := by
  unfold Expr.value?
  cases e.eval <;> simp [Except.toOption]

/-- **An expression has no findings exactly when it has a value.** -/
theorem Expr.findings_eq_nil_iff (e : Expr) (line : Nat) :
    e.findings line = [] ↔ ∃ v, e.eval = .ok v := by
  induction e with
  | literal value => simp [findings, eval]
  | binary op lhs rhs ihl ihr =>
    simp only [findings, List.append_eq_nil_iff, ihl, ihr]
    constructor
    · rintro ⟨⟨⟨a, ha⟩, ⟨b, hb⟩⟩, zero⟩
      rw [value?_eq_some_iff.mpr hb] at zero
      have ne : ¬(op = .div ∧ b = 0) := by simpa using zero
      obtain ⟨v, hv⟩ := apply_eq_ok_of_ne (a := a) ne
      exact ⟨v, by simp [eval, ha, hb, hv]⟩
    · rintro ⟨v, hv⟩
      unfold eval at hv
      split at hv
      · cases hv
      next a ha =>
      split at hv
      · cases hv
      next b hb =>
      refine ⟨⟨⟨a, ha⟩, ⟨b, hb⟩⟩, if_neg fun zero => ?_⟩
      rw [value?_eq_some_iff.mpr hb, Option.some_inj] at zero
      rw [(apply_eq_error_iff op a b .divisionByZero).mpr zero] at hv
      cases hv

theorem cause_of_mem_findings {e : Expr} {line : Nat} {f : Finding} (h : f ∈ e.findings line) :
    f.cause = .divisionByZero := by
  induction e with
  | literal value => simp [Expr.findings] at h
  | binary op lhs rhs ihl ihr =>
    simp only [Expr.findings, List.mem_append] at h
    rcases h with (h | h) | h
    · exact ihl h
    · exact ihr h
    · split at h
      · rw [List.mem_singleton.mp h]
      · cases h

/-! ## The causes of findings -/

/-- What is questionable about an output: a division by zero leaves an operand without a value, and
a device has to be a byte. -/
def Output.Causes (o : Output) : Cause → Prop
  | .divisionByZero => ¬((∃ v, o.device.eval = .ok v) ∧ ∃ v, o.value.eval = .ok v)
  | .wideDevice device => o.device.eval = .ok device ∧ 255 < device.toNat
  | .duplicateMain _ => False

theorem exists_mem_deviceFindings_iff {line : Nat} {device : Expr} {c : Cause} :
    (∃ f ∈ deviceFindings line device, f.cause = c) ↔
      ∃ v, c = .wideDevice v ∧ device.eval = .ok v ∧ 255 < v.toNat := by
  unfold deviceFindings
  cases h : device.value? with
  | none =>
    have noValue : ∀ v, device.eval ≠ .ok v := fun v hv => by
      rw [value?_eq_some_iff.mpr hv] at h
      cases h
    simp [noValue]
  | some value =>
    rw [value?_eq_some_iff] at h
    dsimp only
    rw [h]
    constructor
    · rintro ⟨f, hf, rfl⟩
      split at hf
      · next wide =>
        rw [List.mem_singleton.mp hf]
        exact ⟨value, rfl, rfl, wide⟩
      · cases hf
    · rintro ⟨v, rfl, value, wide⟩
      cases value
      rw [if_pos wide]
      exact ⟨_, List.mem_singleton_self _, rfl⟩

theorem exists_mem_findings_iff {e : Expr} {line : Nat} {c : Cause} :
    (∃ f ∈ e.findings line, f.cause = c) ↔ c = .divisionByZero ∧ ¬∃ v, e.eval = .ok v := by
  rw [← e.findings_eq_nil_iff line]
  constructor
  · rintro ⟨f, hf, rfl⟩
    exact ⟨cause_of_mem_findings hf, List.ne_nil_of_mem hf⟩
  · rintro ⟨rfl, nonempty⟩
    obtain ⟨f, hf⟩ := List.exists_mem_of_ne_nil _ nonempty
    exact ⟨f, hf, cause_of_mem_findings hf⟩

theorem exists_mem_append_iff {α : Type} {p : α → Prop} {as bs : List α} :
    (∃ x ∈ as ++ bs, p x) ↔ (∃ x ∈ as, p x) ∨ ∃ x ∈ bs, p x := by
  simp only [List.mem_append, or_and_right, exists_or]

theorem Output.exists_mem_findings_iff {o : Output} {line : Nat} {c : Cause} :
    (∃ f ∈ o.findings line, f.cause = c) ↔ o.Causes c := by
  rw [findings, exists_mem_append_iff, exists_mem_append_iff, DeoLang.exists_mem_findings_iff,
    DeoLang.exists_mem_findings_iff, exists_mem_deviceFindings_iff]
  cases c with
  | divisionByZero =>
    rw [Causes, Classical.not_and_iff_not_or_not]
    simp
  | duplicateMain first => simp [Causes]
  | wideDevice device => simp [Causes]

/-- **The findings in a body come from its outputs.** -/
theorem exists_mem_bodyFindings_iff {body : List Stmt} {line : Nat} {c : Cause} :
    (∃ f ∈ bodyFindings line body, f.cause = c) ↔ ∃ o ∈ outputs body, o.Causes c := by
  induction body using body_induction generalizing line with
  | nil => simp [bodyFindings]
  | deo device value rest ih =>
    rw [bodyFindings, exists_mem_append_iff, ih, outputs_deo, List.exists_mem_cons_iff,
      Output.exists_mem_findings_iff]
  | block inner body rest ihb ihr =>
    rw [bodyFindings, exists_mem_append_iff, ihb, ihr, outputs_block, exists_mem_append_iff]

theorem exists_mem_laterFindings_iff {later : List Block} {first : Nat} {c : Cause} :
    (∃ f ∈ later.flatMap (laterFindings first), f.cause = c) ↔
      (later ≠ [] ∧ c = .duplicateMain first) ∨ ∃ o ∈ later.flatMap Block.outputs, o.Causes c := by
  induction later with
  | nil => simp
  | cons b later ih =>
    rw [List.flatMap_cons, exists_mem_append_iff, ih, laterFindings, List.exists_mem_cons_iff,
      exists_mem_bodyFindings_iff, List.flatMap_cons, exists_mem_append_iff, Block.outputs]
    constructor
    · rintro ((rfl | body) | ⟨-, rfl⟩ | rest)
      · exact .inl ⟨List.cons_ne_nil _ _, rfl⟩
      · exact .inr (.inl body)
      · exact .inl ⟨List.cons_ne_nil _ _, rfl⟩
      · exact .inr (.inr rest)
    · rintro (⟨-, rfl⟩ | body | rest)
      · exact .inl (.inl rfl)
      · exact .inl (.inr body)
      · exact .inr (.inr rest)

/-- **The findings in a program come from its outputs and from its main blocks.** -/
theorem exists_mem_findings_program_iff {p : Program} {c : Cause} :
    (∃ f ∈ p.findings, f.cause = c) ↔ (∃ o ∈ p.outputs, o.Causes c) ∨
      ∃ first later, p.mains = first :: later ∧ later ≠ [] ∧ c = .duplicateMain first.line := by
  rw [findings_eq, Program.outputs]
  cases p.mains with
  | nil => simp [mainsFindings]
  | cons first later =>
    rw [mainsFindings, exists_mem_append_iff, exists_mem_bodyFindings_iff,
      exists_mem_laterFindings_iff, List.flatMap_cons, exists_mem_append_iff, Block.outputs]
    constructor
    · rintro (body | ⟨nonempty, rfl⟩ | rest)
      · exact .inl (.inl body)
      · exact .inr ⟨first, later, rfl, nonempty, rfl⟩
      · exact .inl (.inr rest)
    · rintro ((body | rest) | ⟨_, _, ⟨⟩, nonempty, rfl⟩)
      · exact .inl body
      · exact .inr (.inr rest)
      · exact .inr (.inl ⟨nonempty, rfl⟩)

/-! ## Reviews that pass -/

theorem exists_judge_eq_error_iff {policy : Policy} {f : Finding} :
    (∃ d ∈ policy.judge f, d.isError = true) ↔ policy.level f.cause = .deny := by
  unfold Policy.judge
  cases policy.level f.cause <;> simp [Diagnostic.isError]

theorem hasErrors_filterMap_judge (policy : Policy) (fs : List Finding) :
    Report.hasErrors (fs.filterMap policy.judge) = true ↔
      ∃ f ∈ fs, policy.level f.cause = .deny := by
  simp only [Report.hasErrors, List.any_eq_true, List.mem_filterMap, ← exists_judge_eq_error_iff]
  constructor
  · rintro ⟨d, ⟨f, hf, judged⟩, error⟩
    exact ⟨f, hf, d, judged, error⟩
  · rintro ⟨f, hf, d, judged, error⟩
    exact ⟨d, ⟨f, hf, judged⟩, error⟩

theorem exists_review_eq_error {p : Program} {policy : Policy} :
    (∃ report, p.review policy = .error report) ↔
      ∃ f ∈ p.findings, policy.level f.cause = .deny := by
  rw [← hasErrors_filterMap_judge]
  unfold Program.review
  dsimp only
  split
  · next errors => exact iff_of_true ⟨_, rfl⟩ errors
  · next clean => exact iff_of_false (by simp) clean

theorem exists_review_eq_ok_iff {p : Program} {policy : Policy} :
    (∃ warnings, p.review policy = .ok warnings) ↔ ¬∃ report, p.review policy = .error report := by
  cases p.review policy <;> simp

theorem hasErrors_of_review {p : Program} {policy : Policy} {warnings : Report}
    (h : p.review policy = .ok warnings) : warnings.hasErrors = false := by
  unfold Program.review at h
  dsimp only at h
  split at h
  · cases h
  · next clean =>
    cases h
    exact Bool.eq_false_iff.mpr clean

/-- **Every operand in a program that passes its review has a value.** -/
theorem exists_eval_of_review {p : Program} {policy : Policy} {warnings : Report}
    (accepted : p.review policy = .ok warnings) {o : Output} (h : o ∈ p.outputs) :
    (∃ v, o.device.eval = .ok v) ∧ ∃ v, o.value.eval = .ok v := by
  by_contra without
  obtain ⟨f, hf, cause⟩ : ∃ f ∈ p.findings, f.cause = .divisionByZero :=
    exists_mem_findings_program_iff.mpr (.inl ⟨o, h, without⟩)
  obtain ⟨report, rejected⟩ := exists_review_eq_error.mpr ⟨f, hf, by rw [cause]; rfl⟩
  rw [accepted] at rejected
  cases rejected

/-- **A program fails its review for a division by zero, or for what the policy denies.** -/
theorem exists_review_eq_error_iff {p : Program} {policy : Policy} :
    (∃ report, p.review policy = .error report) ↔
      (policy.duplicateMain = .deny ∧ 2 ≤ p.mains.length) ∨
      (policy.deviceRange = .deny ∧ ∃ o ∈ p.outputs, ∃ v, o.device.eval = .ok v ∧ 255 < v.toNat) ∨
      ∃ o ∈ p.outputs, ¬((∃ v, o.device.eval = .ok v) ∧ ∃ v, o.value.eval = .ok v) := by
  have denied : (∃ report, p.review policy = .error report) ↔
      ∃ c, policy.level c = .deny ∧ ∃ f ∈ p.findings, f.cause = c := by
    rw [exists_review_eq_error]
    constructor
    · rintro ⟨f, hf, deny⟩
      exact ⟨f.cause, deny, f, hf, rfl⟩
    · rintro ⟨c, deny, f, hf, rfl⟩
      exact ⟨f, hf, deny⟩
  rw [denied]
  constructor
  · rintro ⟨c, deny, found⟩
    rcases exists_mem_findings_program_iff.mp found with
      ⟨o, ho, causes⟩ | ⟨first, later, mains, nonempty, rfl⟩
    · cases c with
      | divisionByZero => exact .inr (.inr ⟨o, ho, causes⟩)
      | wideDevice device => exact .inr (.inl ⟨deny, o, ho, device, causes⟩)
      | duplicateMain first => cases causes
    · refine .inl ⟨deny, ?_⟩
      have pos := List.length_pos_iff.mpr nonempty
      rw [mains, List.length_cons]
      omega
  · rintro (⟨deny, two⟩ | ⟨deny, o, ho, device, causes⟩ | ⟨o, ho, causes⟩)
    · obtain ⟨first, later, mains⟩ := List.exists_cons_of_length_pos (l := p.mains) (by omega)
      rw [mains, List.length_cons] at two
      refine ⟨.duplicateMain first.line, deny, exists_mem_findings_program_iff.mpr ?_⟩
      exact .inr ⟨first, later, mains, List.length_pos_iff.mp (by omega), rfl⟩
    · refine ⟨.wideDevice device, deny, exists_mem_findings_program_iff.mpr ?_⟩
      exact .inl ⟨o, ho, causes⟩
    · exact ⟨.divisionByZero, rfl, exists_mem_findings_program_iff.mpr (.inl ⟨o, ho, causes⟩)⟩

end DeoLang
