import Mathlib
import DeoLang.Proofs.Program.Levels
import DeoLang.Proofs.Session.Messages
import DeoLang.Proofs.Token.Printed

/-!
# One line for each diagnostic

* `OneLine`: a text without a line break; `oneLine_quoteChar` says so of any quoted character.
* `LexFault.oneLine_message`, `Message.oneLine`, `Cause.oneLine_message`: the messages about the
  text of a source, of a parse and of a review.
* `textLines`, **`textLines_intercalate`**: the lines of a text; lines that are joined come apart
  again.
* `Report.OnLines`: the text of a report has one line for each diagnostic.
* **`diagnostics_on_lines`**: so it is for every source and policy.
-/

namespace DeoLang

/-- The text has no line break. -/
def OneLine (s : String) : Prop :=
  '\n' ∉ s.toList

instance (s : String) : Decidable (OneLine s) :=
  inferInstanceAs (Decidable ('\n' ∉ s.toList))

@[simp] theorem oneLine_append {s t : String} : OneLine (s ++ t) ↔ OneLine s ∧ OneLine t := by
  simp [OneLine]

/-! ## Numbers and characters -/

theorem isAlphanum_of_mem_hexMinimal {n : Nat} {c : Char} (h : c ∈ hexMinimal n) :
    c.isAlphanum = true := by
  induction n using Nat.strongRecOn with
  | ind n ih =>
    rw [hexMinimal, Nat.toDigits_eq_if (by decide)] at h
    split at h
    · next small =>
      rw [List.mem_singleton.mp h, ← Nat.mod_eq_of_lt small]
      exact isAlphanum_hexDigit n
    · next large =>
      rcases List.mem_append.mp h with front | last
      · exact ih _ (Nat.div_lt_self (by omega) (by decide)) front
      · rw [List.mem_singleton.mp last]
        exact isAlphanum_hexDigit n

theorem oneLine_ofList_of_isAlphanum {cs : List Char} (h : ∀ c ∈ cs, c.isAlphanum = true) :
    OneLine (String.ofList cs) := by
  rw [OneLine, String.toList_ofList]
  intro mem
  exact absurd (h _ mem) (by decide)

theorem oneLine_decimal (n : Nat) : OneLine (decimal n) := by
  intro mem
  exact absurd (isDigit_of_mem_decimal mem) (by decide)

theorem oneLine_hexFixed (width n : Nat) : OneLine (String.ofList (hexFixed width n)) :=
  oneLine_ofList_of_isAlphanum fun _ => isAlphanum_of_mem_hexFixed

theorem newline_not_mem_escapeChar (quote c : Char) : '\n' ∉ escapeChar quote c := by
  have digits : '\n' ∉ hexMinimal c.toNat := fun mem =>
    absurd (isAlphanum_of_mem_hexMinimal mem) (by decide)
  unfold escapeChar
  split_ifs with _ _ _ newline
  · decide
  · decide
  · decide
  · decide
  · simpa [eq_comm] using newline
  · simp [digits]
  · simpa [eq_comm] using newline

/-- A quoted character is on one line, the line break itself as well. -/
theorem oneLine_quoteChar (c : Char) : OneLine (quoteChar c) := by
  simp [OneLine, quoteChar, newline_not_mem_escapeChar]

/-! ## Messages -/

theorem LexFault.oneLine_message (f : LexFault) : OneLine f.message := by
  cases f with
  | unknown c => exact oneLine_append.mpr ⟨by decide, oneLine_quoteChar c⟩
  | noDigits base => cases base <;> decide
  | unterminated => decide
  | notAscii c => exact oneLine_append.mpr ⟨by decide, oneLine_quoteChar c⟩

theorem Terminal.oneLine_describe (t : Terminal) : OneLine t.describe := by
  cases t with
  | punct p => cases p <;> decide
  | keyword k => cases k <;> decide
  | identifier | integer | character | ending => decide

theorem Session.Asked.oneLine {what : String} (h : Session.Asked what) : OneLine what := by
  cases h with
  | terminal t => exact t.oneLine_describe
  | expression | statement | declaration => decide

theorem Base.not_digit_newline (b : Base) : ¬b.Digit '\n' := by
  rw [← Base.isDigit_iff]
  cases b <;> decide

theorem Base.not_marks_newline (b : Base) : ¬b.Marks '\n' := by
  rw [← Base.ofMarker?_eq_some_iff]
  exact fun marker => by cases marker

/-- Integer tokens consist of digits and a marker. -/
theorem oneLine_of_spells {s : String} (h : Spells .integer s.toList) : OneLine s := by
  unfold OneLine
  generalize s.toList = cs at h
  intro mem
  cases h with
  | decimal digits => exact Base.not_digit_newline _ (digits.2 _ mem)
  | @marked run digits b m leading marks digits =>
    rcases List.mem_append.mp mem with front | back
    · exact Base.not_digit_newline _ (leading.2 _ front)
    rcases List.mem_cons.mp back with rfl | last
    · exact Base.not_marks_newline b marks
    · exact Base.not_digit_newline b (digits.2 _ last)

theorem NumeralError.oneLine_message {s : String} {e : NumeralError} (h : OneLine s)
    (read : readInt s = .error e) : OneLine e.message := by
  cases e with
  | overflow => decide
  | malformed lexeme =>
    obtain ⟨rfl, -⟩ := (readInt_eq_malformed_iff _ _).mp read
    unfold message
    rw [oneLine_append, oneLine_append]
    exact ⟨⟨by decide, h⟩, by decide⟩

/-- Every message of a parse is on one line. -/
theorem Message.oneLine {message : String} (h : Message message) : OneLine message := by
  cases h with
  | fault f => exact f.oneLine_message
  | expected t asked =>
    rw [oneLine_append, oneLine_append, oneLine_append]
    exact ⟨⟨⟨by decide, asked.oneLine⟩, by decide⟩, t.oneLine_describe⟩
  | numeral spells read => exact NumeralError.oneLine_message (oneLine_of_spells spells) read

theorem Cause.oneLine_message (cause : Cause) : OneLine cause.message := by
  cases cause with
  | divisionByZero => decide
  | duplicateMain first =>
    unfold message
    rw [oneLine_append]
    exact ⟨by decide, oneLine_decimal first⟩
  | wideDevice device =>
    unfold message
    rw [oneLine_append, oneLine_append, oneLine_append]
    exact ⟨⟨⟨by decide, oneLine_hexFixed 4 _⟩, by decide⟩, oneLine_hexFixed 2 _⟩

/-! ## Lines -/

/-- The lines of a text without a line break at its end. The empty text has none. -/
def textLines (s : String) : List String :=
  if s = "" then [] else (s.toList.splitOn '\n').map String.ofList

/-- **Lines that are joined come apart again.** -/
theorem textLines_intercalate {ls : List String} (oneLine : ∀ l ∈ ls, OneLine l)
    (visible : "" ∉ ls) : textLines ("\n".intercalate ls) = ls := by
  by_cases noLines : ls = []
  · subst noLines
    rfl
  have split : ("\n".intercalate ls).toList.splitOn '\n' = ls.map String.toList := by
    rw [String.toList_intercalate]
    exact List.splitOn_intercalate '\n' (by simpa [OneLine] using oneLine) (by simpa using noLines)
  have nonempty : "\n".intercalate ls ≠ "" := by
    intro empty
    rw [empty] at split
    cases ls with
    | nil => exact noLines rfl
    | cons l ls =>
      have first : l.toList = [] := (List.cons.inj split).1.symm
      rw [String.toList_eq_nil_iff] at first
      exact visible (first ▸ List.mem_cons_self)
  rw [textLines, if_neg nonempty, split, List.map_map]
  simp

/-- The text of the report has one line for each diagnostic, in order: its severity, its line and
its message. -/
def Report.OnLines (r : Report) : Prop :=
  textLines r.render = r.map fun d =>
    (if d.severity = .error then "error" else "warning") ++ " at line " ++ decimal d.line ++ ": " ++
      d.message

theorem Diagnostic.oneLine_render {d : Diagnostic} (h : OneLine d.message) : OneLine d.render := by
  have severity : OneLine d.severity.name := by cases d.severity <;> decide
  unfold render
  rw [oneLine_append, oneLine_append, oneLine_append, oneLine_append]
  exact ⟨⟨⟨⟨severity, by decide⟩, oneLine_decimal d.line⟩, by decide⟩, h⟩

theorem Diagnostic.render_ne_empty (d : Diagnostic) : d.render ≠ "" := by
  simp [render]

theorem Severity.name_eq_ite (s : Severity) :
    s.name = if s = .error then "error" else "warning" := by
  cases s <;> rfl

theorem onLines_of_messages {r : Report} (h : ∀ d ∈ r, OneLine d.message) : r.OnLines := by
  have lines : textLines r.render = r.map Diagnostic.render := by
    refine textLines_intercalate ?_ ?_
    · simpa using fun d hd => (Diagnostic.oneLine_render (h d hd))
    · simpa using fun d _ => d.render_ne_empty
  rw [Report.OnLines, lines]
  refine List.map_congr_left fun d _ => ?_
  rw [Diagnostic.render, Severity.name_eq_ite]

/-! ## Stages of a build -/

theorem oneLine_of_parse {source : String} {report : Report} (h : parse source = .error report) :
    ∀ d ∈ report, OneLine d.message := by
  intro d hd
  rw [← (diagnostics_of_parse h).1] at hd
  exact (message_of_tells source _ (Session.recorded_mem_events hd) d (.inl rfl)).oneLine

theorem oneLine_of_recorded (policy : Policy) (p : Program) :
    ∀ d ∈ p.recorded policy, OneLine d.message := by
  intro d hd
  rw [recorded_eq_filterMap_judge] at hd
  obtain ⟨f, -, judged⟩ := List.mem_filterMap.mp hd
  have same : d.message = f.cause.message := by
    unfold Policy.judge at judged
    split at judged <;> cases judged <;> rfl
  rw [same]
  exact f.cause.oneLine_message

theorem oneLine_of_compile_error {source : String} {policy : Policy} {e : BuildError}
    {report : Report} (h : compile policy source = .error e) (behind : e.report? = some report) :
    ∀ d ∈ report, OneLine d.message := by
  unfold compile at h
  split at h
  · next parsed =>
    cases h
    cases behind
    exact oneLine_of_parse parsed
  next p parsed =>
  split at h
  · next failed =>
    cases h
    cases behind
    have recorded : p.recorded policy = report := by rw [Program.recorded, failed]
    exact recorded ▸ oneLine_of_recorded policy p
  · -- an image that is too large has no diagnostics
    unfold Program.build at h
    dsimp only at h
    split at h <;> cases h
    cases behind

theorem oneLine_of_compile_ok {source : String} {policy : Policy} {b : Build}
    (h : compile policy source = .ok b) : ∀ d ∈ b.warnings, OneLine d.message := by
  obtain ⟨p, -, passed, -⟩ := compile_eq_ok_iff.mp h
  have recorded : p.recorded policy = b.warnings := by rw [Program.recorded, passed]
  exact recorded ▸ oneLine_of_recorded policy p

/-- **No source breaks the format of the diagnostics.** No message has a line break in it: neither
those about the text of a source, nor those of its parse, recorded or held back, nor those of a
review. So the text of the diagnostics of a failed build has one line for each of them in their
order, and so has the text of the warnings of a build. -/
theorem diagnostics_on_lines (source : String) (policy : Policy) :
    (∀ e, .error e ∈ (Cursor.ofSource source).results → OneLine e.fault.message) ∧
    (∀ e ∈ (Session.ofSource source).finish.2.events, ∀ d, e.Tells d → OneLine d.message) ∧
    (∀ p : Program, ∀ d ∈ p.recorded policy, OneLine d.message) ∧
    (∀ e report, compile policy source = .error e → e.report? = some report →
      (∀ d ∈ report, OneLine d.message) ∧ report.OnLines) ∧
    ∀ b, compile policy source = .ok b →
      (∀ d ∈ b.warnings, OneLine d.message) ∧ b.warnings.OnLines := by
  refine ⟨fun e _ => e.fault.oneLine_message,
    fun e he d tells => (message_of_tells source e he d tells).oneLine,
    oneLine_of_recorded policy, fun e report failed behind => ?_, fun b built => ?_⟩
  · have messages := oneLine_of_compile_error failed behind
    exact ⟨messages, onLines_of_messages messages⟩
  · have messages := oneLine_of_compile_ok built
    exact ⟨messages, onLines_of_messages messages⟩

/-- A source in which statements are missing. On its first line stands a character literal with a
line break in it. -/
def misplacedLiteral : String :=
  "main \x7b '\n' \x7d\nmain \x7b + \x7d"

theorem diagnostics_on_lines_misplacedLiteral :
    ((Cursor.ofSource "\\").results = [.error ⟨.unknown '\\', 1⟩, .ok (Token.ending 1)] ∧
      OneLine (LexFault.unknown '\\').message) ∧
    (∃ d d', parse misplacedLiteral = .error [d, d'] ∧ OneLine d.message) ∧
    (∃ (p : Program) (d d' : Diagnostic), p.recorded ⟨.warn, .warn⟩ = [d, d'] ∧
      OneLine d'.message) ∧
    (∃ d d', compile .default misplacedLiteral = .error (.parsing [d, d']) ∧
      Report.OnLines [d, d']) ∧
    ∃ b, compile ⟨.warn, .warn⟩ questionable = .ok b ∧ b.warnings.length = 2 ∧
      b.warnings.OnLines := by
  let policy : Policy := ⟨.warn, .warn⟩
  let p : Program := ⟨[⟨1, [.deo (.literal 300) (.literal 2)]⟩, ⟨2, []⟩]⟩
  let first : Diagnostic := ⟨.error, 1, "expected statement, but got character literal"⟩
  let second : Diagnostic := ⟨.error, 3, "expected statement, but got '+'"⟩
  have results : (Cursor.ofSource "\\").results =
      [.error ⟨.unknown '\\', 1⟩, .ok (Token.ending 1)] := by cbv
  have failed : parse misplacedLiteral = .error [first, second] := by cbv
  have told : .recorded first ∈ (Session.ofSource misplacedLiteral).finish.2.events := by
    apply Session.recorded_mem_events
    rw [(diagnostics_of_parse failed).1]
    exact List.mem_cons_self
  have broken : compile .default misplacedLiteral = .error (.parsing [first, second]) := by
    rw [compile, failed]
  have findings : p.findings = [⟨1, .wideDevice 300⟩, ⟨2, .duplicateMain 1⟩] := by cbv
  have recorded : p.recorded policy = [⟨.warning, 1, (Cause.wideDevice 300).message⟩,
      ⟨.warning, 2, (Cause.duplicateMain 1).message⟩] := by
    rw [recorded_eq_filterMap_judge, findings]
    rfl
  obtain ⟨b, built, warned⟩ : ∃ b, compile policy questionable = .ok b ∧
      p.recorded policy = b.warnings := by
    have parsed : parse questionable = .ok p := by cbv
    have small : fits p.image.length = true := by cbv
    obtain ⟨warnings, review⟩ : ∃ warnings, p.review policy = .ok warnings := by
      rw [exists_review_eq_ok_iff, exists_review_eq_error, findings]
      decide
    exact ⟨⟨p.image, warnings⟩, compile_eq_ok_iff.mpr ⟨p, parsed, review, small, rfl⟩,
      by rw [Program.recorded, review]⟩
  have two : b.warnings.length = 2 := by rw [← warned, recorded]; rfl
  obtain ⟨lexed, -, -, -, -⟩ := diagnostics_on_lines "\\" policy
  obtain ⟨-, said, -, onLines, -⟩ := diagnostics_on_lines misplacedLiteral .default
  obtain ⟨-, -, found, -, warnings⟩ := diagnostics_on_lines questionable policy
  refine ⟨⟨results, lexed ⟨.unknown '\\', 1⟩ (by rw [results]; exact List.mem_cons_self)⟩,
    ⟨first, second, failed, said _ told first (.inl rfl)⟩,
    ⟨p, _, _, recorded, found p _ (by rw [recorded]; exact .tail _ (.head _))⟩,
    ⟨first, second, broken, (onLines _ _ broken rfl).2⟩,
    ⟨b, built, two, (warnings b built).2⟩⟩

end DeoLang
