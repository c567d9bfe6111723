import Mathlib
import DeoLang.Build
import DeoLang.Program.Inspect
import DeoLang.Proofs.Program.Review

/-!
# Levels of checks

* `Reviewer.inspector`: the inspector that has judged what a reviewer has noted.
* **`inspect_eq_review`**: findings can be judged where they are made.
* `Program.recorded`: the diagnostics of a review, whether the program passes it or not.
* `Policy.strict`, `Policy.levelOf`, `Policy.relabel`: the policy that allows nothing, the level of
  a check that is known by its wording, and what another policy makes of a diagnostic.
* **`recorded_eq_filterMap`**: a policy leaves out or relabels what the strict one reports.
* `Level.rank`, `Policy.Laxer`: policies in order.
* **`review_under_policies`**: policies decide which sources pass, and not what is built from them.
-/

namespace DeoLang

/-! ## Judging on the way -/

/-- The inspector that has judged what a reviewer has noted. -/
def Reviewer.inspector (policy : Policy) (line : Nat) (r : Reviewer) : Inspector :=
  ⟨policy, r.found.reverse.filterMap policy.judge, r.first, line⟩

section

variable (policy : Policy) (line : Nat) (r : Reviewer)

theorem judge_inspector (place : Nat) (cause : Cause) :
    (r.inspector policy line).judge (policy.level cause) place cause.message =
      (r.note place cause).inspector policy line := by
  simp only [Reviewer.inspector, Reviewer.note, List.reverse_cons, List.filterMap_append,
    filterMap_judge_singleton]
  cases policy.level cause with
  | allow => exact congrArg (Inspector.mk policy · r.first line) (List.append_nil _).symm
  | warn | deny => rfl

theorem inspect_inspector (e : Expr) :
    e.inspect (r.inspector policy line) = (e.check line r).inspector policy line := by
  induction e generalizing r with
  | literal value => rfl
  | binary op lhs rhs ihl ihr =>
    simp only [Expr.inspect, Expr.check, ihl, ihr]
    split
    · exact judge_inspector policy line _ line .divisionByZero
    · rfl

theorem inspectDevice_inspector (device : Expr) :
    inspectDevice device (r.inspector policy line) =
      (checkDevice line device r).inspector policy line := by
  unfold inspectDevice checkDevice
  cases device.value? with
  | none => rfl
  | some value =>
    dsimp only
    split
    · exact judge_inspector policy line r line (.wideDevice value)
    · rfl

theorem inspectBody_inspector (body : List Stmt) :
    inspectBody body (r.inspector policy line) = (checkBody line body r).inspector policy line := by
  induction body using body_induction generalizing line r with
  | nil => rw [inspectBody, checkBody]
  | deo device value rest ih =>
    rw [inspectBody, inspect_inspector, inspect_inspector, inspectDevice_inspector, ih, checkBody]
  | block inner body rest ihb ihr =>
    have inside : (r.inspector policy line).within inner (inspectBody body) =
        (checkBody inner body r).inspector policy line :=
      congrArg (fun i : Inspector => { i with line }) (ihb inner r)
    rw [inspectBody, inside, ihr, checkBody]

theorem enterMain_inspector (place : Nat) : (r.inspector policy line).enterMain place =
    (r.enterMain place).inspector policy line := by
  obtain ⟨first, found⟩ := r
  cases first with
  | none => rfl
  | some first => exact judge_inspector policy line _ place (.duplicateMain first)

theorem inspect_block_inspector (b : Block) :
    b.inspect (r.inspector policy line) = (b.check r).inspector policy line := by
  rw [Block.inspect, enterMain_inspector, Block.check]
  exact congrArg (fun i : Inspector => { i with line })
    (inspectBody_inspector policy b.line _ b.body)

end

/-- **Findings can be judged where they are made.** An inspection, which does so, and which puts
the line of a block aside while it is in another, reports what a review reports. -/
theorem inspect_eq_review (policy : Policy) (p : Program) : p.inspect policy = p.review policy := by
  have start : Inspector.ofPolicy policy = Reviewer.empty.inspector policy 1 := rfl
  have walk : p.mains.foldl (fun i (b : Block) => b.inspect i) (Reviewer.empty.inspector policy 1) =
      (p.mains.foldl (fun r (b : Block) => b.check r) .empty).inspector policy 1 :=
    List.foldl_hom (Reviewer.inspector policy 1) (inspect_block_inspector policy 1)
  unfold Program.inspect
  rw [start, walk]
  rfl

/-- The diagnostics of a review, whether the program passes it or not. -/
def Program.recorded (policy : Policy) (p : Program) : Report :=
  match p.review policy with
  | .ok report => report
  | .error report => report

/-! ## Wordings -/

theorem Cause.prefix_message_duplicateMain (first : Nat) :
    "duplicate main block".toList <+: (Cause.duplicateMain first).message.toList :=
  prefix_toList_append _ (by decide)

theorem Cause.prefix_message_wideDevice (device : Word) :
    "port 0x".toList <+: (Cause.wideDevice device).message.toList :=
  prefix_toList_append _ (prefix_toList_append _ (prefix_toList_append _ (List.prefix_refl _)))

namespace Policy

/-- The policy that denies whatever is found. -/
def strict : Policy :=
  ⟨.deny, .deny⟩

/-- The level of the check that a message comes from. Divisions by zero have no level of their
own. -/
def levelOf (policy : Policy) (message : String) : Level :=
  if "duplicate main block".toList <+: message.toList then policy.duplicateMain
  else if "port 0x".toList <+: message.toList then policy.deviceRange
  else .deny

/-- What a policy makes of an error: nothing, a warning, or the error itself. -/
def relabel (policy : Policy) (d : Diagnostic) : Option Diagnostic :=
  match policy.levelOf d.message with
  | .allow => none
  | .warn => some { d with severity := .warning }
  | .deny => some d

/-- The check behind a finding is known by the wording. -/
theorem levelOf_message (policy : Policy) (cause : Cause) :
    policy.levelOf cause.message = policy.level cause := by
  unfold levelOf
  cases cause with
  | divisionByZero =>
    rw [if_neg (by decide), if_neg (by decide)]
    rfl
  | duplicateMain first =>
    rw [if_pos (Cause.prefix_message_duplicateMain first)]
    rfl
  | wideDevice device =>
    have words := Cause.prefix_message_wideDevice device
    have others : ¬"duplicate main block".toList <+: (Cause.wideDevice device).message.toList :=
      fun h => absurd (List.prefix_of_prefix_length_le words h (by decide)) (by decide)
    rw [if_neg others, if_pos words]
    rfl

theorem judge_strict (f : Finding) : strict.judge f = some ⟨.error, f.line, f.cause.message⟩ := by
  unfold judge
  cases f.cause <;> rfl

theorem judge_eq_bind_relabel (policy : Policy) (f : Finding) :
    policy.judge f = (strict.judge f).bind policy.relabel := by
  rw [judge_strict, Option.bind_some]
  cases level : policy.level f.cause <;> simp only [judge, relabel, levelOf_message, level]

end Policy

theorem recorded_eq_filterMap_judge (policy : Policy) (p : Program) :
    p.recorded policy = p.findings.filterMap policy.judge := by
  rw [filterMap_judge_program, Program.recorded, review_eq_ite]
  by_cases errors : (p.report policy).hasErrors = true
  · rw [if_pos errors]
  · rw [if_neg errors]

/-- **A policy leaves out or relabels what the strict one reports.** -/
theorem recorded_eq_filterMap (policy : Policy) (p : Program) :
    p.recorded policy = (p.recorded .strict).filterMap policy.relabel := by
  rw [recorded_eq_filterMap_judge, recorded_eq_filterMap_judge, List.filterMap_filterMap]
  exact congrArg (List.filterMap · p.findings) (funext policy.judge_eq_bind_relabel)

/-! ## Policies in order -/

/-- How severe a level is. -/
def Level.rank : Level → Nat
  | allow => 0
  | warn => 1
  | deny => 2

/-- No check is more severe under the first policy than under the second. -/
def Policy.Laxer (lax strict : Policy) : Prop :=
  lax.duplicateMain.rank ≤ strict.duplicateMain.rank ∧
    lax.deviceRange.rank ≤ strict.deviceRange.rank

theorem Level.eq_deny_of_rank_le {a b : Level} (deny : a = .deny) (h : a.rank ≤ b.rank) :
    b = .deny := by
  subst deny
  cases b with
  | deny => rfl
  | allow | warn => exact absurd h (by decide)

theorem Policy.Laxer.level_eq_deny {lax strict : Policy} (h : lax.Laxer strict) {cause : Cause}
    (deny : lax.level cause = .deny) : strict.level cause = .deny := by
  cases cause with
  | divisionByZero => rfl
  | duplicateMain first => exact Level.eq_deny_of_rank_le deny h.1
  | wideDevice device => exact Level.eq_deny_of_rank_le deny h.2

theorem Policy.Laxer.exists_review_eq_ok {lax strict : Policy} (h : lax.Laxer strict) {p : Program}
    (ok : ∃ warnings, p.review strict = .ok warnings) :
    ∃ warnings, p.review lax = .ok warnings := by
  rw [exists_review_eq_ok_iff, exists_review_eq_error] at ok ⊢
  rintro ⟨f, found, deny⟩
  exact ok ⟨f, found, h.level_eq_deny deny⟩

theorem compile_eq_ok_iff {policy : Policy} {source : String} {b : Build} :
    compile policy source = .ok b ↔ ∃ p, parse source = .ok p ∧
      p.review policy = .ok b.warnings ∧ fits p.image.length = true ∧ b.image = p.image := by
  constructor
  · intro built
    unfold compile at built
    split at built
    · cases built
    next p parsed =>
    split at built
    · cases built
    next warnings review =>
    unfold Program.build at built
    dsimp only at built
    split at built
    · next small =>
      cases built
      exact ⟨p, parsed, review, small, rfl⟩
    · cases built
  · rintro ⟨p, parsed, review, small, image⟩
    rw [← image] at small
    simp only [compile, parsed, review, Program.build, ← image, small, if_true]

/-- **Policies decide which sources pass, and not what is built from them.** A report is the same
whether its findings are judged where they are made or afterwards. The diagnostics of a program
under any policy are those under the strict one, in the same order and with the same lines and
messages, without the ones of checks that are allowed, and with warnings in the place of errors for
checks that warn. What is built under a policy is built under a laxer one, with the same image, and
no two policies build different images. -/
theorem review_under_policies (policy : Policy) (p : Program) (source : String) :
    p.inspect policy = p.review policy ∧
      p.recorded policy = (p.recorded .strict).filterMap policy.relabel ∧
      (∀ (stricter : Policy) (b : Build), policy.Laxer stricter →
        compile stricter source = .ok b →
          ∃ warnings, compile policy source = .ok ⟨b.image, warnings⟩) ∧
      ∀ (other : Policy) (a b : Build), compile policy source = .ok a →
        compile other source = .ok b → a.image = b.image := by
  refine ⟨inspect_eq_review policy p, recorded_eq_filterMap policy p, ?_, ?_⟩
  · intro stricter b laxer built
    obtain ⟨q, parsed, passed, small, image⟩ := compile_eq_ok_iff.mp built
    obtain ⟨warnings, review⟩ := laxer.exists_review_eq_ok ⟨_, passed⟩
    exact ⟨warnings, compile_eq_ok_iff.mpr ⟨q, parsed, review, small, image⟩⟩
  · intro other a b first second
    obtain ⟨q, parsed, -, -, image⟩ := compile_eq_ok_iff.mp first
    obtain ⟨q', parsed', -, -, image'⟩ := compile_eq_ok_iff.mp second
    rw [parsed] at parsed'
    cases parsed'
    rw [image, image']

/-- A source with a device that is no byte, and with a second main block. -/
def questionable : String :=
  "main \x7b deo 300, 2 \x7d\nmain \x7b \x7d"

theorem review_under_policies_questionable :
    (∃ warnings, compile ⟨.warn, .warn⟩ questionable =
        .ok ⟨[0xA0, 0x00, 0x02, 0xA0, 0x01, 0x2C, 0x03, 0x37, 0x00, 0x00], warnings⟩) ∧
      ∃ warnings, compile ⟨.warn, .allow⟩ questionable =
        .ok ⟨[0xA0, 0x00, 0x02, 0xA0, 0x01, 0x2C, 0x03, 0x37, 0x00, 0x00], warnings⟩ := by
  let p : Program := ⟨[⟨1, [.deo (.literal 300) (.literal 2)]⟩, ⟨2, []⟩]⟩
  have parsed : parse questionable = .ok p := by cbv
  have findings : p.findings = [⟨1, .wideDevice 300⟩, ⟨2, .duplicateMain 1⟩] := by cbv
  have image : p.image = [0xA0, 0x00, 0x02, 0xA0, 0x01, 0x2C, 0x03, 0x37, 0x00, 0x00] := by cbv
  obtain ⟨warnings, review⟩ : ∃ warnings, p.review ⟨.warn, .warn⟩ = .ok warnings := by
    rw [exists_review_eq_ok_iff, exists_review_eq_error, findings]
    decide
  have built := compile_eq_ok_iff (b := ⟨p.image, warnings⟩).mpr
    ⟨p, parsed, review, by rw [image]; rfl, rfl⟩
  rw [image] at built
  exact ⟨⟨warnings, built⟩,
    (review_under_policies ⟨.warn, .allow⟩ p questionable).2.2.1 _ _ ⟨by decide, by decide⟩ built⟩

end DeoLang
