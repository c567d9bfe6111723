import Mathlib
import DeoLang.Build
import DeoLang.Proofs.Image.Code
import DeoLang.Proofs.Program.Findings
import DeoLang.Proofs.Session.Parse

/-!
# The outcome of a build

* `length_image_of_literals`: how long the image of a program without operations is.
* `Policy.Denies`: what makes a policy reject a program from a source.
* `exists_compile_eq_semantics_iff`, `compile_eq_tooLarge_iff`, `exists_compile_eq_ok`: the outcome
  for a source that has a program.
* **`compile_outcome`**: the outcome for every source and policy.
-/

namespace DeoLang

theorem length_image_of_literals {p : Program}
    (h : ∀ o ∈ p.outputs, ∃ x y, o = ⟨.literal x, .literal y⟩) :
    p.image.length = 8 * p.outputs.length + p.mains.length := by
  have sizes : p.outputs.map Output.size = List.replicate p.outputs.length 8 := by
    refine List.eq_replicate_iff.mpr ⟨List.length_map _, fun n hn => ?_⟩
    obtain ⟨o, ho, rfl⟩ := List.mem_map.mp hn
    obtain ⟨x, y, rfl⟩ := h o ho
    rfl
  rw [length_image, sizes, List.sum_replicate_nat]
  omega

/-- The policy denies a second main block or a device that is no byte, and the program has one. -/
def Policy.Denies (policy : Policy) (p : Program) : Prop :=
  (policy.duplicateMain = .deny ∧ 2 ≤ p.mains.length) ∨
    (policy.deviceRange = .deny ∧ ∃ o ∈ p.outputs, ∃ v, o.device.eval = .ok v ∧ 255 < v.toNat)

/-- Literals have values, so a program without operations fails its review only for what the policy
denies. -/
theorem exists_review_eq_error_of_literals {p : Program} (policy : Policy)
    (h : ∀ o ∈ p.outputs, ∃ x y, o = ⟨.literal x, .literal y⟩) :
    (∃ report, p.review policy = .error report) ↔ policy.Denies p := by
  have values : ¬∃ o ∈ p.outputs, ¬((∃ v, o.device.eval = .ok v) ∧ ∃ v, o.value.eval = .ok v) := by
    rintro ⟨o, ho, without⟩
    obtain ⟨x, y, rfl⟩ := h o ho
    exact without ⟨⟨x, rfl⟩, ⟨y, rfl⟩⟩
  rw [exists_review_eq_error_iff, Policy.Denies]
  exact or_congr_right (or_iff_left values)

section

variable {source : String} {p : Program} (policy : Policy) (h : parse source = .ok p)

include h

theorem literals_of_parse : ∀ o ∈ p.outputs, ∃ x y, o = ⟨.literal x, .literal y⟩ := by
  obtain ⟨ts, -, tree⟩ := parse_eq_ok_iff.mp h
  intro o ho
  obtain ⟨x, y, shape, -, -⟩ := tree.readFrom o ho
  exact ⟨x, y, shape⟩

theorem build_eq (warnings : Report) : p.build warnings =
    if 8 * p.outputs.length + p.mains.length ≤ 65280 then .ok ⟨p.image, warnings⟩
    else .error (.tooLarge (8 * p.outputs.length + p.mains.length)) := by
  have length := length_image_of_literals (literals_of_parse h)
  have limit : memorySize - resetVector = 65280 := rfl
  simp only [Program.build, fits, length, limit, decide_eq_true_eq]

theorem compile_eq_build {policy : Policy} {warnings : Report}
    (review : p.review policy = .ok warnings) : compile policy source = p.build warnings := by
  simp only [compile, h, review]

theorem exists_compile_eq_semantics_iff :
    (∃ report, compile policy source = .error (.semantics report)) ↔ policy.Denies p := by
  rw [← exists_review_eq_error_of_literals policy (literals_of_parse h)]
  cases review : p.review policy with
  | error report => simp [compile, h, review]
  | ok warnings =>
    rw [compile_eq_build h review, build_eq h]
    split <;> simp

theorem exists_compile_eq_build (allowed : ¬policy.Denies p) : ∃ warnings : Report,
    warnings.hasErrors = false ∧ compile policy source = p.build warnings := by
  rw [← exists_review_eq_error_of_literals policy (literals_of_parse h)] at allowed
  cases review : p.review policy with
  | error report => exact absurd ⟨report, review⟩ allowed
  | ok warnings => exact ⟨warnings, hasErrors_of_review review, compile_eq_build h review⟩

theorem compile_eq_tooLarge_iff (allowed : ¬policy.Denies p) :
    compile policy source = .error (.tooLarge (8 * p.outputs.length + p.mains.length)) ↔
      65280 < 8 * p.outputs.length + p.mains.length := by
  obtain ⟨warnings, -, built⟩ := exists_compile_eq_build policy h allowed
  rw [built, build_eq h]
  split
  · next fits => simpa using fits
  · next large => simpa using large

theorem exists_compile_eq_ok (allowed : ¬policy.Denies p)
    (fits : 8 * p.outputs.length + p.mains.length ≤ 65280) :
    ∃ b, compile policy source = .ok b ∧
      b.image.length = 8 * p.outputs.length + p.mains.length ∧ b.warnings.hasErrors = false := by
  obtain ⟨warnings, clean, built⟩ := exists_compile_eq_build policy h allowed
  rw [build_eq h, if_pos fits] at built
  exact ⟨_, built, length_image_of_literals (literals_of_parse h), clean⟩

end

theorem default_denies_iff {p : Program} : Policy.default.Denies p ↔ 2 ≤ p.mains.length := by
  simp [Policy.Denies, Policy.default]

/-- Under the default policy a source has an image exactly when it has a program with at most one
main block and room for its code. -/
theorem exists_compileImage_eq_ok_iff {source : String} :
    (∃ image, compileImage source = .ok image) ↔
      ∃ p, parse source = .ok p ∧ p.mains.length ≤ 1 ∧
        8 * p.outputs.length + p.mains.length ≤ 65280 := by
  have image : (∃ image, compileImage source = .ok image) ↔
      ∃ b, compile .default source = .ok b := by
    rw [compileImage]
    cases compile .default source <;> simp [Except.map]
  rw [image]
  constructor
  · rintro ⟨b, built⟩
    cases h : parse source with
    | error report => simp [compile, h] at built
    | ok p =>
      have allowed : ¬Policy.default.Denies p := by
        rw [← exists_compile_eq_semantics_iff .default h, built]
        simp
      refine ⟨p, rfl, ?_, ?_⟩
      · rw [default_denies_iff] at allowed
        omega
      · have small := mt (compile_eq_tooLarge_iff .default h allowed).mpr (by simp [built])
        omega
  · rintro ⟨p, h, one, fits⟩
    have allowed : ¬Policy.default.Denies p := by
      rw [default_denies_iff]
      omega
    obtain ⟨b, built, -⟩ := exists_compile_eq_ok .default h allowed fits
    exact ⟨b, built⟩

/-- **The outcome of a build.** If a source has a program, its build fails its review exactly when
the policy denies it, and fails for its size exactly when it is not denied and its image does not
fit; otherwise there is an image, of eight bytes for each output and one for each main block, and
the warnings contain no error. Under the default policy a source has an image exactly when it is
grammatical, has at most one main block and its image fits. -/
theorem compile_outcome (source : String) :
    (∀ p policy, parse source = .ok p →
      ((∃ report, compile policy source = .error (.semantics report)) ↔ policy.Denies p) ∧
      (¬policy.Denies p →
        (compile policy source = .error (.tooLarge (8 * p.outputs.length + p.mains.length)) ↔
          65280 < 8 * p.outputs.length + p.mains.length) ∧
        (8 * p.outputs.length + p.mains.length ≤ 65280 → ∃ b, compile policy source = .ok b ∧
          b.image.length = 8 * p.outputs.length + p.mains.length ∧
          b.warnings.hasErrors = false))) ∧
    ((∃ image, compileImage source = .ok image) ↔
      ∃ ts, HasTokens source ts ∧ IsProgram (ts.map Token.terminal) ∧
        (∀ t ∈ ts, t.terminal = .integer → ∃ w, readInt t.lexeme = .ok w) ∧
        (ts.map Token.terminal).count (.keyword .main) ≤ 1 ∧
        8 * (ts.map Token.terminal).count (.keyword .deo) +
          (ts.map Token.terminal).count (.keyword .main) ≤ 65280) := by
  constructor
  · intro p policy h
    exact ⟨exists_compile_eq_semantics_iff policy h, fun allowed =>
      ⟨compile_eq_tooLarge_iff policy h allowed, exists_compile_eq_ok policy h allowed⟩⟩
  rw [exists_compileImage_eq_ok_iff]
  constructor
  · rintro ⟨p, h, one, fits⟩
    obtain ⟨ts, tokens, tree⟩ := parse_eq_ok_iff.mp h
    obtain ⟨deos, mains⟩ := tree.count
    refine ⟨ts, tokens, tree.isProgram, tokens.literalsValued_iff.mp tree.literalsValued, ?_, ?_⟩
    · rwa [mains]
    · rwa [deos, mains]
  · rintro ⟨ts, tokens, derives, valued, one, fits⟩
    obtain ⟨mains, tree⟩ :=
      exists_programTree_iff.mpr ⟨derives, tokens.literalsValued_iff.mpr valued⟩
    obtain ⟨deos, count⟩ := tree.count
    rw [deos, count] at fits
    rw [count] at one
    exact ⟨⟨mains⟩, parse_eq_ok_iff.mpr ⟨ts, tokens, tree⟩, one, fits⟩

/-- A source with a second main block, and with an output to a device that is no byte. -/
def wideDevice : String :=
  "main \x7b deo 300, 2 \x7d main \x7b \x7d"

theorem compile_outcome_wideDevice :
    (∃ report, compile .default wideDevice = .error (.semantics report)) ∧
      ∃ b, compile ⟨.warn, .allow⟩ wideDevice = .ok b ∧ b.image.length = 10 ∧
        b.warnings.hasErrors = false := by
  have program : parse wideDevice =
      .ok ⟨[⟨1, [.deo (.literal 300) (.literal 2)]⟩, ⟨1, []⟩]⟩ := by cbv
  obtain ⟨outcome, -⟩ := compile_outcome wideDevice
  refine ⟨(outcome _ .default program).1.mpr (.inl ⟨rfl, by decide⟩), ?_⟩
  have allowed := (outcome _ ⟨.warn, .allow⟩ program).2 (by simp [Policy.Denies])
  obtain ⟨b, built, length, clean⟩ := allowed.2 (by simp [Program.outputs, Block.outputs])
  exact ⟨b, built, length.trans (by simp [Program.outputs, Block.outputs]), clean⟩

end DeoLang
