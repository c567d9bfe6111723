import Mathlib
import DeoLang.Proofs.Token.Partition

/-!
# The longest token

* `Base.Digit`, `Base.Marks`, `IsLetter`: the characters of words and numerals.
* `Spells`: the texts that the tokens of a class can have.
* `Longest`: a text is the longest start of a source that a token can have.
* `EmptyNumeral`, `Faulty`: numerals without digits behind their marker, and what is passed over
  where no token starts.
* `Fragment.Greedy`: a fragment is an empty numeral, else the longest token, else a fault.
* `greedy_scan`, `eq_scan_of_greedy`: scanning gives the one greedy fragment of a text.
* `Cursor.Skips`: only trivia are between two cursors, and a fragment starts at the second one;
  `skips_iff` says that skipping leads there.
* **`next_eq_iff`**: the lexer implements its token grammar by longest match.
-/

namespace DeoLang

/-! ## Characters -/

/-- The digits of a base: `[0-9]`, `[0-9a-fA-F]` and `[01]`. -/
def Base.Digit : Base → Char → Prop
  | .decimal, c => '0' ≤ c ∧ c ≤ '9'
  | .hexadecimal, c => '0' ≤ c ∧ c ≤ '9' ∨ 'a' ≤ c ∧ c ≤ 'f' ∨ 'A' ≤ c ∧ c ≤ 'F'
  | .binary, c => c = '0' ∨ c = '1'

/-- The marker of a base: `x` or `b`. -/
def Base.Marks (b : Base) (c : Char) : Prop :=
  b = .hexadecimal ∧ c = 'x' ∨ b = .binary ∧ c = 'b'

/-- `[A-Za-z_]`. -/
def IsLetter (c : Char) : Prop :=
  'A' ≤ c ∧ c ≤ 'Z' ∨ 'a' ≤ c ∧ c ≤ 'z' ∨ c = '_'

theorem le_iff_toNat_le {c d : Char} : c ≤ d ↔ c.toNat ≤ d.toNat := by
  rw [Char.le_def, UInt32.le_iff_toNat_le]
  rfl

namespace Base

theorem isDigit_iff {b : Base} {c : Char} : b.isDigit c = true ↔ b.Digit c := by
  have zero : c = '0' ↔ c.toNat = 48 := Char.toNat_inj.symm
  have one : c = '1' ↔ c.toNat = 49 := Char.toNat_inj.symm
  have value : b.isDigit c = true ↔ ∃ n, digitValue? c = some n ∧ n < b.radix := by
    simp [isDigit, Option.any_eq_true]
  rw [value]
  unfold digitValue?
  cases b <;> simp only [Digit, radix, le_iff_toNat_le, zero, one, Char.reduceToNat] <;>
    split_ifs <;>
    simp only [Option.some.injEq, exists_eq_left', false_and, exists_false, false_iff] <;> omega

theorem ofMarker?_eq_some_iff {c : Char} {b : Base} : ofMarker? c = some b ↔ b.Marks c := by
  unfold ofMarker? Marks
  split <;> simp_all [eq_comm]

theorem Marks.unique {b b' : Base} {c : Char} (h : b.Marks c) (h' : b'.Marks c) : b = b' :=
  Option.some.inj ((ofMarker?_eq_some_iff.mpr h).symm.trans (ofMarker?_eq_some_iff.mpr h'))

theorem Marks.not_digit {b : Base} {c : Char} (h : b.Marks c) : c.isDigit = false := by
  rcases h with ⟨-, rfl⟩ | ⟨-, rfl⟩ <;> decide

end Base

theorem decimalDigit_iff {c : Char} : c.isDigit = true ↔ Base.decimal.Digit c := by
  simp [Base.Digit, Char.isDigit, Char.le_def]

theorem isWordStart_iff {c : Char} : isWordStart c = true ↔ IsLetter c := by
  simp [isWordStart, IsLetter, Char.isAlpha, Char.isUpper, Char.isLower, Char.le_def, or_assoc]

theorem isWordRest_iff {c : Char} : isWordRest c = true ↔ IsLetter c ∨ Base.decimal.Digit c := by
  rw [← isWordStart_iff, ← decimalDigit_iff]
  simp only [isWordRest, isWordStart, Char.isAlphanum, Bool.or_eq_true]
  tauto

theorem isDigit_eq_false_of_isWordStart {c : Char} (h : isWordStart c = true) :
    c.isDigit = false := by
  have underscore : c = '_' ↔ c.toNat = 95 := Char.toNat_inj.symm
  rw [← Bool.not_eq_true, decimalDigit_iff]
  rw [isWordStart_iff] at h
  simp only [IsLetter, Base.Digit, le_iff_toNat_le, underscore, Char.reduceToNat] at h ⊢
  omega

/-! ## The texts of tokens -/

/-- One or more digits of a base. -/
def Base.Digits (b : Base) (cs : List Char) : Prop :=
  cs ≠ [] ∧ ∀ c ∈ cs, b.Digit c

/-- What stands in front of the character of a literal: a backslash or nothing. The backslash itself
has to have one. -/
inductive Escape : List Char → Char → Prop where
  | plain {c : Char} : c ≠ '\\' → Escape [] c
  | backslash (c : Char) : Escape ['\\'] c

/-- The texts that the tokens of a class can have. -/
inductive Spells : Terminal → List Char → Prop where
  | punct (p : Punct) : Spells (.punct p) [p.char]
  | keyword (k : Keyword) : Spells (.keyword k) k.text.toList
  | identifier {c : Char} {cs : List Char} : IsLetter c →
      (∀ d ∈ cs, IsLetter d ∨ Base.decimal.Digit d) → (∀ k : Keyword, c :: cs ≠ k.text.toList) →
      Spells .identifier (c :: cs)
  | decimal {run : List Char} : Base.decimal.Digits run → Spells .integer run
  | marked {run digits : List Char} {b : Base} {m : Char} : Base.decimal.Digits run → b.Marks m →
      b.Digits digits → Spells .integer (run ++ m :: digits)
  | character {before : List Char} {c : Char} : Escape before c → c.toNat < 128 →
      Spells .character ('\'' :: before ++ [c, '\''])

/-- No token can have a longer start of `cs` as its text. -/
structure Longest (t : Terminal) (text cs : List Char) : Prop where
  spells : Spells t text
  start : text <+: cs
  longest : ∀ u p, Spells u p → p <+: cs → p.length ≤ text.length

/-- Decimal digits and the marker of a base, without a digit of the base behind it. -/
inductive EmptyNumeral : Base → List Char → List Char → Prop where
  | intro {b : Base} {run rest : List Char} {m : Char} : Base.decimal.Digits run → b.Marks m →
      (∀ d ∈ rest.head?, ¬b.Digit d) → EmptyNumeral b (run ++ [m]) rest

/-- What is passed over where no token starts. A literal without its closing quote is passed over up
to the quoted character, as far as it is there. -/
inductive Faulty : LexFault → List Char → List Char → Prop where
  | unknown {c : Char} {rest : List Char} : c ≠ '\'' → Faulty (.unknown c) [c] rest
  | notAscii {before rest : List Char} {c : Char} : Escape before c → 128 ≤ c.toNat →
      Faulty (.notAscii c) ('\'' :: before ++ [c, '\'']) rest
  | unclosed {before rest : List Char} {c : Char} : Escape before c → rest.head? ≠ some '\'' →
      Faulty .unterminated ('\'' :: before ++ [c]) rest
  | unfinished {before : List Char} : before = [] ∨ before = ['\\'] →
      Faulty .unterminated ('\'' :: before) []

/-- No empty numeral starts a text. -/
def NoEmptyNumeral (cs : List Char) : Prop :=
  ∀ b text rest, EmptyNumeral b text rest → text ++ rest ≠ cs

/-- No token starts a text. -/
def NoToken (cs : List Char) : Prop :=
  ∀ t p, Spells t p → ¬p <+: cs

/-- **What the token grammar prescribes** at the start of a text: an empty numeral if there is one,
else the longest token if there is one, else a fault. -/
inductive Fragment.Greedy : Fragment → Prop where
  | noDigits {b : Base} {text rest : List Char} : EmptyNumeral b text rest →
      Greedy ⟨.error (.noDigits b), text, rest⟩
  | token {t : Terminal} {text rest : List Char} : NoEmptyNumeral (text ++ rest) →
      Longest t text (text ++ rest) → Greedy ⟨.ok t, text, rest⟩
  | fault {e : LexFault} {text rest : List Char} : NoEmptyNumeral (text ++ rest) →
      NoToken (text ++ rest) → Faulty e text rest → Greedy ⟨.error e, text, rest⟩

/-! ## The first character tells the class -/

/-- The tokens that can start with a character. -/
def Heads (c : Char) : Terminal → Prop
  | .punct p => c = p.char
  | .identifier => isWordStart c = true
  | .keyword _ => isWordStart c = true
  | .integer => c.isDigit = true
  | .character => c = '\''
  | .ending => False

theorem Base.Digits.head {c : Char} {cs : List Char} (h : Base.decimal.Digits (c :: cs)) :
    c.isDigit = true :=
  decimalDigit_iff.mpr (h.2 c List.mem_cons_self)

theorem Keyword.exists_text_eq (k : Keyword) : ∃ c cs, k.text.toList = c :: cs ∧
    isWordStart c = true ∧ ∀ d ∈ cs, isWordRest d = true := by
  cases k with
  | fn => exact ⟨'f', ['n'], rfl, rfl, List.all_eq_true.mp rfl⟩
  | main => exact ⟨'m', ['a', 'i', 'n'], rfl, rfl, List.all_eq_true.mp rfl⟩
  | deo => exact ⟨'d', ['e', 'o'], rfl, rfl, List.all_eq_true.mp rfl⟩

theorem Spells.ne_nil {t : Terminal} {p : List Char} (h : Spells t p) : p ≠ [] := by
  cases h with
  | keyword k => cases k <;> decide
  | decimal run => exact run.1
  | punct | identifier | marked | character => simp

theorem Spells.heads {t : Terminal} {c : Char} {p : List Char} (h : Spells t (c :: p)) :
    Heads c t := by
  generalize text : c :: p = q at h
  cases h with
  | punct p => exact (List.cons.inj text).1
  | keyword k =>
    obtain ⟨d, ds, letters, start, -⟩ := k.exists_text_eq
    rw [letters] at text
    cases text
    exact start
  | identifier letter =>
    cases text
    exact isWordStart_iff.mpr letter
  | decimal run =>
    subst text
    exact run.head
  | @marked run _ _ _ digits =>
    cases run with
    | nil => exact absurd rfl digits.1
    | cons d run =>
      cases text
      exact digits.head
  | character => exact (List.cons.inj text).1

theorem eq_word_of_heads {c : Char} {t : Terminal} (h : Heads c t) (word : isWordStart c = true) :
    t = .identifier ∨ ∃ k, t = .keyword k := by
  cases t with
  | punct p => subst h; cases p <;> cases word
  | identifier => exact .inl rfl
  | keyword k => exact .inr ⟨k, rfl⟩
  | integer => exact absurd h (by simp [Heads, isDigit_eq_false_of_isWordStart word])
  | character => subst h; cases word
  | ending => exact h.elim

theorem eq_integer_of_heads {c : Char} {t : Terminal} (h : Heads c t) (digit : c.isDigit = true) :
    t = .integer := by
  cases t with
  | punct p => subst h; cases p <;> cases digit
  | identifier => exact absurd digit (by simp [isDigit_eq_false_of_isWordStart h])
  | keyword k => exact absurd digit (by simp [isDigit_eq_false_of_isWordStart h])
  | integer => rfl
  | character => subst h; cases digit
  | ending => exact h.elim

theorem eq_character_of_heads {t : Terminal} (h : Heads '\'' t) : t = .character := by
  cases t with
  | punct p => cases p <;> cases h
  | identifier | keyword | integer => cases h
  | character => rfl
  | ending => exact h.elim

theorem eq_punct_of_heads {p : Punct} {t : Terminal} (h : Heads p.char t) : t = .punct p := by
  cases t with
  | punct q =>
    have same := Punct.ofChar?_eq_some_iff.mpr (show p.char = q.char from h)
    rw [Punct.ofChar?_eq_some_iff.mpr rfl] at same
    rw [Option.some.inj same]
  | identifier | keyword | integer | character => cases p <;> cases h
  | ending => exact h.elim

/-! ## Words -/

theorem spells_iff_of_isWordStart {c : Char} (word : isWordStart c = true) {p : List Char}
    {t : Terminal} : Spells t (c :: p) ↔ (∀ d ∈ p, isWordRest d = true) ∧
      t = ((Keyword.ofText? (String.ofList (c :: p))).map .keyword).getD .identifier := by
  constructor
  · intro h
    rcases eq_word_of_heads h.heads word with rfl | ⟨k, rfl⟩
    · cases h with
      | identifier letter rest other =>
        refine ⟨fun d hd => isWordRest_iff.mpr (rest d hd), ?_⟩
        cases keyword : Keyword.ofText? (String.ofList (c :: p)) with
        | none => rfl
        | some k =>
          refine absurd ?_ (other k)
          rw [← Keyword.ofText?_eq_some_iff.mp keyword, String.toList_ofList]
    · generalize text : c :: p = q at h
      cases h
      obtain ⟨d, ds, letters, -, rest⟩ := k.exists_text_eq
      rw [← text] at letters
      cases letters
      rw [String.ofList_toList, Keyword.ofText?_eq_some_iff.mpr rfl]
      exact ⟨rest, rfl⟩
  · rintro ⟨rest, rfl⟩
    cases keyword : Keyword.ofText? (String.ofList (c :: p)) with
    | none =>
      refine .identifier (isWordStart_iff.mp word) (fun d hd => isWordRest_iff.mp (rest d hd)) ?_
      intro k text
      rw [text, String.ofList_toList, Keyword.ofText?_eq_some_iff.mpr rfl] at keyword
      cases keyword
    | some k =>
      have text := Keyword.ofText?_eq_some_iff.mp keyword
      rw [← String.toList_ofList (l := c :: p), text]
      exact .keyword k

/-- A text is that of one class only. -/
theorem Spells.unique {t u : Terminal} {p : List Char} (h : Spells t p) (h' : Spells u p) :
    t = u := by
  obtain ⟨c, q, rfl⟩ := List.exists_cons_of_ne_nil h.ne_nil
  have same : isWordStart c = true → t = u := by
    intro word
    rw [((spells_iff_of_isWordStart word).mp h).2, ((spells_iff_of_isWordStart word).mp h').2]
  have heads := h'.heads
  cases t with
  | punct p =>
    rw [show c = p.char from h.heads] at heads
    exact (eq_punct_of_heads heads).symm
  | identifier => exact same h.heads
  | keyword => exact same h.heads
  | integer => exact (eq_integer_of_heads heads h.heads).symm
  | character =>
    rw [show c = '\'' from h.heads] at heads
    exact (eq_character_of_heads heads).symm
  | ending => exact h.heads.elim

theorem length_le_length_takeWhile {α : Type} {f : α → Bool} {p cs : List α} (h : p <+: cs)
    (all : ∀ a ∈ p, f a = true) : p.length ≤ (cs.takeWhile f).length := by
  obtain ⟨rest, rfl⟩ := h
  rw [List.takeWhile_append_of_pos all, List.length_append]
  exact Nat.le_add_right _ _

/-- A token at a text that starts with `c` starts with `c` itself. -/
theorem exists_cons_of_prefix {c : Char} {cs p : List Char} {t : Terminal} (h : Spells t p)
    (start : p <+: c :: cs) : ∃ q, p = c :: q ∧ q <+: cs ∧ Heads c t := by
  rcases List.prefix_cons_iff.mp start with rfl | ⟨q, rfl, rest⟩
  · exact absurd rfl h.ne_nil
  · exact ⟨q, rfl, rest, h.heads⟩

/-- Only a digit starts an empty numeral. -/
theorem noEmptyNumeral_cons {c : Char} (h : c.isDigit = false) (cs : List Char) :
    NoEmptyNumeral (c :: cs) := by
  intro b text rest empty whole
  obtain ⟨digits, -, -⟩ := empty
  rename_i run m
  cases run with
  | nil => exact digits.1 rfl
  | cons d run =>
    cases whole
    rw [digits.head] at h
    cases h

namespace Fragment

theorem Greedy.of_longest {t : Terminal} {text rest cs : List Char} (whole : text ++ rest = cs)
    (noEmpty : NoEmptyNumeral cs) (spells : Spells t text)
    (longest : ∀ u p, Spells u p → p <+: cs → p.length ≤ text.length) :
    Greedy ⟨.ok t, text, rest⟩ := by
  subst whole
  exact .token noEmpty ⟨spells, List.prefix_append _ _, longest⟩

theorem greedy_word {c : Char} (word : isWordStart c = true) (cs : List Char) :
    (Fragment.word c cs).Greedy := by
  refine .of_longest (word_text_append_rest c cs)
    (noEmptyNumeral_cons (isDigit_eq_false_of_isWordStart word) cs)
    ((spells_iff_of_isWordStart word).mpr ⟨List.all_eq_true.mp List.all_takeWhile, rfl⟩) ?_
  intro t p h start
  obtain ⟨q, rfl, rest, -⟩ := exists_cons_of_prefix h start
  have all := ((spells_iff_of_isWordStart word).mp h).1
  exact Nat.succ_le_succ (length_le_length_takeWhile rest all)

/-! ## Numerals -/

theorem span_append {α : Type} {f : α → Bool} {run tail : List α} (all : ∀ a ∈ run, f a = true)
    (stop : ∀ a ∈ tail.head?, f a = false) :
    (run ++ tail).takeWhile f = run ∧ (run ++ tail).dropWhile f = tail := by
  rw [List.takeWhile_append_of_pos all, List.dropWhile_append_of_pos all]
  cases tail with
  | nil => simp
  | cons a tail => simp [stop a rfl]

/-- A text falls apart into its digits and the rest in one way only. -/
theorem append_inj_of_digits {run run' tail tail' : List Char} (digits : Base.decimal.Digits run)
    (digits' : Base.decimal.Digits run') (stop : ∀ c ∈ tail.head?, c.isDigit = false)
    (stop' : ∀ c ∈ tail'.head?, c.isDigit = false) (h : run ++ tail = run' ++ tail') :
    run = run' ∧ tail = tail' := by
  have split := span_append (fun c hc => decimalDigit_iff.mpr (digits.2 c hc)) stop
  have split' := span_append (fun c hc => decimalDigit_iff.mpr (digits'.2 c hc)) stop'
  rw [h] at split
  exact ⟨split.1.symm.trans split'.1, split.2.symm.trans split'.2⟩

theorem stop_of_marks {b : Base} {m : Char} (h : b.Marks m) (rest : List Char) :
    ∀ c ∈ (m :: rest).head?, c.isDigit = false := by
  rintro c ⟨⟩
  exact h.not_digit

section Run

variable {run tail : List Char} (digits : Base.decimal.Digits run)

include digits

/-- The tokens that a run of digits starts: numerals within the run, and the whole run with a
marker. -/
theorem prefix_of_run (stop : ∀ c ∈ tail.head?, c.isDigit = false) {t : Terminal} {p : List Char}
    (h : Spells t p) (start : p <+: run ++ tail) : p <+: run ∨
      ∃ (b : Base) (m : Char) (ds : List Char),
        p = run ++ m :: ds ∧ b.Marks m ∧ b.Digits ds ∧ m :: ds <+: tail := by
  obtain ⟨c, cs, rfl⟩ := List.exists_cons_of_ne_nil digits.1
  obtain ⟨q, rfl, -, heads⟩ := exists_cons_of_prefix h start
  rw [eq_integer_of_heads heads digits.head] at h
  generalize c :: q = p at h start
  cases h with
  | decimal all =>
    have le := length_le_length_takeWhile start fun d hd => decimalDigit_iff.mpr (all.2 d hd)
    rw [(span_append (fun d hd => decimalDigit_iff.mpr (digits.2 d hd)) stop).1] at le
    exact .inl (List.prefix_of_prefix_length_le start (List.prefix_append _ _) le)
  | @marked run' ds b m digits' marks ds' =>
    obtain ⟨rest, whole⟩ := start
    rw [List.append_assoc] at whole
    obtain ⟨rfl, tail⟩ := append_inj_of_digits digits' digits (stop_of_marks marks _) stop whole
    exact .inr ⟨b, m, ds, rfl, marks, ds', rest, tail⟩

theorem noEmptyNumeral_of_run (stop : ∀ c ∈ tail.head?, c.isDigit = false)
    (h : ∀ (b : Base) m rest, tail = m :: rest → b.Marks m → ∃ d ∈ rest.head?, b.Digit d) :
    NoEmptyNumeral (run ++ tail) := by
  intro b text rest empty whole
  obtain ⟨digits', marks, noDigit⟩ := empty
  rename_i run' m
  rw [List.append_assoc] at whole
  obtain ⟨rfl, tail⟩ := append_inj_of_digits digits' digits (stop_of_marks marks _) stop whole
  obtain ⟨d, first, digit⟩ := h b m rest tail.symm marks
  exact noDigit d first digit

theorem greedy_run (stop : ∀ c ∈ tail.head?, c.isDigit = false)
    (plain : ∀ (b : Base) m rest, tail = m :: rest → ¬b.Marks m) :
    Greedy ⟨.ok .integer, run, tail⟩ := by
  refine .of_longest rfl (noEmptyNumeral_of_run digits stop ?_) (.decimal digits) ?_
  · exact fun b m rest shape marks => absurd marks (plain b m rest shape)
  · intro u p h start
    rcases prefix_of_run digits stop h start with within | ⟨b, m, ds, -, marks, -, rest, shape⟩
    · exact within.length_le
    · exact absurd marks (plain b m _ shape.symm)

theorem greedy_marked {b : Base} {m : Char} (marks : b.Marks m) {rest : List Char}
    (nonempty : rest.takeWhile b.isDigit ≠ []) :
    Greedy ⟨.ok .integer, run ++ m :: rest.takeWhile b.isDigit, rest.dropWhile b.isDigit⟩ := by
  have stop := stop_of_marks marks rest
  have all : ∀ d ∈ rest.takeWhile b.isDigit, b.isDigit d = true :=
    List.all_eq_true.mp List.all_takeWhile
  have whole : (run ++ m :: rest.takeWhile b.isDigit) ++ rest.dropWhile b.isDigit =
      run ++ m :: rest := by
    rw [List.append_assoc, List.cons_append, List.takeWhile_append_dropWhile]
  refine .of_longest whole (noEmptyNumeral_of_run digits stop ?_) ?_ ?_
  · rintro b' _ _ ⟨rfl, rfl⟩ marks'
    obtain ⟨d, ds, shape⟩ := List.exists_cons_of_ne_nil nonempty
    rw [marks'.unique marks]
    refine ⟨d, ?_, Base.isDigit_iff.mp (all d (by simp [shape]))⟩
    rw [← List.takeWhile_append_dropWhile (p := b.isDigit) (l := rest), shape]
    rfl
  · exact .marked digits marks ⟨nonempty, fun d hd => Base.isDigit_iff.mp (all d hd)⟩
  · intro u p h start
    rcases prefix_of_run digits stop h start with within | ⟨b', m', ds, rfl, marks', ds', within⟩
    · have le := within.length_le
      rw [List.length_append]
      omega
    · obtain ⟨rfl, behind⟩ := List.cons_prefix_cons.mp within
      obtain rfl := marks'.unique marks
      have all : ∀ d ∈ ds, b'.isDigit d = true := fun d hd => Base.isDigit_iff.mpr (ds'.2 d hd)
      have le := length_le_length_takeWhile behind all
      simp only [List.length_append, List.length_cons]
      omega

theorem greedy_empty {b : Base} {m : Char} (marks : b.Marks m) {rest : List Char}
    (empty : rest.takeWhile b.isDigit = []) :
    Greedy ⟨.error (.noDigits b), run ++ [m], rest⟩ := by
  refine .noDigits (.intro digits marks fun d hd digit => ?_)
  cases rest with
  | nil => cases hd
  | cons d' rest =>
    cases hd
    rw [List.takeWhile_cons_of_pos (Base.isDigit_iff.mpr digit)] at empty
    cases empty

end Run

theorem greedy_number {c : Char} (digit : c.isDigit = true) (cs : List Char) :
    (number c cs).Greedy := by
  have digits : Base.decimal.Digits (c :: cs.takeWhile Char.isDigit) := by
    refine ⟨List.cons_ne_nil _ _, List.forall_mem_cons.mpr ⟨decimalDigit_iff.mp digit, ?_⟩⟩
    exact fun d hd => decimalDigit_iff.mp (List.all_eq_true.mp List.all_takeWhile d hd)
  have stop : ∀ d ∈ (cs.dropWhile Char.isDigit).head?, d.isDigit = false := by
    have first := List.head?_dropWhile_not Char.isDigit cs
    intro d hd
    rwa [Option.mem_def.mp hd] at first
  unfold number
  generalize cs.dropWhile Char.isDigit = tail at *
  generalize c :: cs.takeWhile Char.isDigit = run at *
  cases tail with
  | nil => exact greedy_run digits stop (by simp)
  | cons m rest =>
    cases marker : Base.ofMarker? m with
    | none =>
      simp only [marker]
      refine greedy_run digits stop ?_
      rintro b _ _ ⟨rfl, rfl⟩ marks
      rw [Base.ofMarker?_eq_some_iff.mpr marks] at marker
      cases marker
    | some base =>
      have marks := Base.ofMarker?_eq_some_iff.mp marker
      simp only [marker]
      split
      · next empty => exact greedy_empty digits marks (List.isEmpty_iff.mp empty)
      · next nonempty => exact greedy_marked digits marks (by simpa using nonempty)

/-! ## Character literals -/

/-- The only token that a quoted character can start is the literal. -/
theorem prefix_of_quote {before cs p : List Char} {c : Char} (escape : Escape before c)
    {t : Terminal} (h : Spells t p) (start : p <+: '\'' :: before ++ c :: cs) :
    p = '\'' :: before ++ [c, '\''] ∧ c.toNat < 128 ∧ cs.head? = some '\'' := by
  obtain ⟨q, rfl, -, heads⟩ := exists_cons_of_prefix h start
  rw [eq_character_of_heads heads] at h
  generalize '\'' :: q = p at h start
  cases h with
  | @character before' d escape' ascii =>
    have inside := (List.cons_prefix_cons.mp start).2
    cases escape with
    | plain ne =>
      cases escape' with
      | plain =>
        obtain ⟨rfl, rest, rfl⟩ := List.cons_prefix_cons.mp inside
        exact ⟨rfl, ascii, rfl⟩
      | backslash => exact absurd (List.cons_prefix_cons.mp inside).1.symm ne
    | backslash =>
      cases escape' with
      | plain ne => exact absurd (List.cons_prefix_cons.mp inside).1 ne
      | backslash =>
        obtain ⟨rfl, rest, rfl⟩ := List.cons_prefix_cons.mp (List.cons_prefix_cons.mp inside).2
        exact ⟨rfl, ascii, rfl⟩

theorem noEmptyNumeral_quote (cs : List Char) : NoEmptyNumeral ('\'' :: cs) :=
  noEmptyNumeral_cons rfl cs

theorem greedy_closeQuote {before : List Char} {c : Char} (escape : Escape before c)
    (cs : List Char) : (closeQuote ('\'' :: before) c cs).Greedy := by
  have whole := closeQuote_text_append_rest ('\'' :: before) c cs
  unfold closeQuote at whole ⊢
  split at whole
  · next rest =>
    split
    · next ascii =>
      refine .of_longest whole (noEmptyNumeral_quote _) (.character escape ascii) ?_
      intro u p h start
      exact Nat.le_of_eq (congrArg List.length (prefix_of_quote escape h start).1)
    · next notAscii =>
      refine .fault (whole ▸ noEmptyNumeral_quote _) ?_ (.notAscii escape (by omega))
      intro u p h start
      rw [whole] at start
      exact notAscii (prefix_of_quote escape h start).2.1
  · next rest open' =>
    have unclosed : cs.head? ≠ some '\'' := by
      intro first
      obtain ⟨rest, rfl⟩ := List.head?_eq_some_iff.mp first
      exact open' rest rfl
    refine .fault (whole ▸ noEmptyNumeral_quote _) ?_ (.unclosed escape unclosed)
    intro u p h start
    rw [whole] at start
    exact unclosed (prefix_of_quote escape h start).2.2

/-- A quote with at most a backslash behind it is too short for a token. -/
theorem greedy_unfinished {before : List Char} (h : before = [] ∨ before = ['\\']) :
    Greedy ⟨.error .unterminated, '\'' :: before, []⟩ := by
  refine .fault (noEmptyNumeral_quote _) ?_ (.unfinished h)
  intro t p spells start
  obtain ⟨q, rfl, -, heads⟩ := exists_cons_of_prefix spells start
  rw [eq_character_of_heads heads] at spells
  have short : before.length ≤ 1 := by rcases h with rfl | rfl <;> simp
  have le := start.length_le
  rw [List.append_nil] at le
  generalize '\'' :: q = p at spells le
  cases spells
  simp only [List.cons_append, List.length_cons, List.length_append, List.length_nil] at le
  omega

theorem greedy_quoted (cs : List Char) : (quoted cs).Greedy := by
  unfold quoted
  split
  · exact greedy_unfinished (.inl rfl)
  · exact greedy_unfinished (.inr rfl)
  · exact greedy_closeQuote (.backslash _) _
  · next c cs alone escaped =>
    refine greedy_closeQuote (.plain ?_) _
    rintro rfl
    cases cs with
    | nil => exact alone rfl rfl
    | cons d cs => exact escaped d cs rfl rfl

/-! ## Scanning -/

theorem greedy_punct (p : Punct) (cs : List Char) : Greedy ⟨.ok (.punct p), [p.char], cs⟩ := by
  have noDigit : p.char.isDigit = false := by cases p <;> rfl
  refine .of_longest rfl (noEmptyNumeral_cons noDigit cs) (.punct p) ?_
  intro u q h start
  obtain ⟨q, rfl, -, heads⟩ := exists_cons_of_prefix h start
  rw [eq_punct_of_heads heads] at h
  generalize text : p.char :: q = q' at h
  cases h
  exact Nat.le_refl _

theorem noToken_of_heads {c : Char} (h : ∀ t, ¬Heads c t) (cs : List Char) : NoToken (c :: cs) := by
  intro t p spells start
  obtain ⟨q, rfl, -, heads⟩ := exists_cons_of_prefix spells start
  exact h t heads

/-- **Scanning finds what the token grammar prescribes.** -/
theorem greedy_scan (c : Char) (cs : List Char) : (scan c cs).Greedy := by
  unfold scan
  split
  · next p punct =>
    obtain rfl := Punct.ofChar?_eq_some_iff.mp punct
    exact greedy_punct p cs
  · next noPunct =>
    split
    · exact greedy_quoted cs
    split
    · next digit => exact greedy_number digit cs
    split
    · next word => exact greedy_word word cs
    · next noQuote noDigit noWord =>
      refine .fault (noEmptyNumeral_cons (by simpa using noDigit) cs) (noToken_of_heads ?_ cs)
        (.unknown noQuote)
      intro t heads
      cases t with
      | punct p => rw [Punct.ofChar?_eq_some_iff.mpr heads] at noPunct; cases noPunct
      | identifier => exact noWord heads
      | keyword => exact noWord heads
      | integer => exact noDigit heads
      | character => exact noQuote heads
      | ending => exact heads

/-! ## One fragment only -/

theorem scan_of_unknown {c : Char} {cs : List Char} (noToken : NoToken (c :: cs)) (ne : c ≠ '\'') :
    scan c cs = ⟨.error (.unknown c), [c], cs⟩ := by
  have start : [c] <+: c :: cs := List.prefix_append [c] cs
  unfold scan
  split
  · next p punct =>
    obtain rfl := Punct.ofChar?_eq_some_iff.mp punct
    exact absurd start (noToken _ _ (.punct p))
  rw [if_neg ne]
  split
  · next digit =>
    have digits : Base.decimal.Digits [c] := ⟨by simp, by simpa using decimalDigit_iff.mp digit⟩
    exact absurd start (noToken _ _ (.decimal digits))
  split
  · next word =>
    exact absurd start (noToken _ _ ((spells_iff_of_isWordStart word).mpr ⟨by simp, rfl⟩))
  · rfl

theorem scan_quote (cs : List Char) : scan '\'' cs = quoted cs := rfl

theorem quoted_of_escape {before : List Char} {c : Char} (escape : Escape before c)
    (cs : List Char) : quoted (before ++ c :: cs) = closeQuote ('\'' :: before) c cs := by
  cases escape with
  | backslash => rfl
  | plain ne => exact quoted.eq_4 c cs (fun h => absurd h ne) (fun _ _ h => absurd h ne)

theorem closeQuote_of_unclosed {before cs : List Char} {c : Char} (h : cs.head? ≠ some '\'') :
    closeQuote before c cs = ⟨.error .unterminated, before ++ [c], cs⟩ := by
  unfold closeQuote
  split
  · exact absurd rfl h
  · rfl

theorem scan_of_faulty {e : LexFault} {text rest cs : List Char} {c : Char}
    (faulty : Faulty e text rest) (whole : text ++ rest = c :: cs) (noToken : NoToken (c :: cs)) :
    scan c cs = ⟨.error e, text, rest⟩ := by
  cases faulty with
  | unknown ne =>
    cases whole
    exact scan_of_unknown noToken ne
  | @notAscii before _ d escape notAscii =>
    obtain ⟨rfl, rfl⟩ : '\'' = c ∧ before ++ d :: '\'' :: rest = cs := by simpa using whole
    rw [scan_quote, quoted_of_escape escape, closeQuote, if_neg (by omega)]
  | @unclosed before _ d escape unclosed =>
    obtain ⟨rfl, rfl⟩ : '\'' = c ∧ before ++ d :: rest = cs := by simpa using whole
    rw [scan_quote, quoted_of_escape escape, closeQuote_of_unclosed unclosed]
  | @unfinished before short =>
    obtain ⟨rfl, rfl⟩ : '\'' = c ∧ before = cs := by simpa using whole
    rcases short with rfl | rfl <;> rfl

end Fragment

theorem Longest.unique {t u : Terminal} {text text' cs : List Char} (h : Longest t text cs)
    (h' : Longest u text' cs) : t = u ∧ text = text' := by
  have le := h'.longest t text h.spells h.start
  have ge := h.longest u text' h'.spells h'.start
  have same := (List.prefix_of_prefix_length_le h.start h'.start le).eq_of_length_le ge
  subst same
  exact ⟨h.spells.unique h'.spells, rfl⟩

theorem EmptyNumeral.unique {b b' : Base} {text text' rest rest' : List Char}
    (h : EmptyNumeral b text rest) (h' : EmptyNumeral b' text' rest')
    (whole : text ++ rest = text' ++ rest') : b = b' ∧ text = text' ∧ rest = rest' := by
  obtain ⟨digits, marks, -⟩ := h
  obtain ⟨digits', marks', -⟩ := h'
  rw [List.append_assoc, List.append_assoc] at whole
  obtain ⟨rfl, tail⟩ := Fragment.append_inj_of_digits digits digits'
    (Fragment.stop_of_marks marks _) (Fragment.stop_of_marks marks' _) whole
  obtain ⟨rfl, rfl⟩ := List.cons.inj tail
  exact ⟨marks.unique marks', rfl, rfl⟩

/-- **The token grammar prescribes nothing else.** -/
theorem Fragment.eq_scan_of_greedy {f : Fragment} (h : f.Greedy) {c : Char} {cs : List Char}
    (whole : f.text ++ f.rest = c :: cs) : f = scan c cs := by
  have scanned := greedy_scan c cs
  have whole' := whole.trans (scan_text_append_rest c cs).symm
  cases h with
  | fault _ noToken faulty =>
    dsimp only at whole
    rw [whole] at noToken
    exact (scan_of_faulty faulty whole noToken).symm
  | noDigits empty =>
    generalize scan c cs = g at scanned whole'
    cases scanned with
    | noDigits empty' =>
      obtain ⟨rfl, rfl, rfl⟩ := empty.unique empty' whole'
      rfl
    | token noEmpty => exact absurd whole' (noEmpty _ _ _ empty)
    | fault noEmpty => exact absurd whole' (noEmpty _ _ _ empty)
  | token noEmpty longest =>
    generalize scan c cs = g at scanned whole'
    cases scanned with
    | noDigits empty => exact absurd whole'.symm (noEmpty _ _ _ empty)
    | token _ longest' =>
      dsimp only at whole'
      rw [← whole'] at longest'
      obtain ⟨rfl, rfl⟩ := longest.unique longest'
      rw [List.append_cancel_left whole']
    | fault _ noToken =>
      refine absurd longest.start ?_
      dsimp only at whole'
      rw [whole']
      exact noToken _ _ longest.spells

/-! ## Places where fragments start -/

/-- Only trivia are between the two cursors, and a fragment starts at the second one. -/
structure Cursor.Skips (c start : Cursor) : Prop where
  trivia : ∃ t, Trivia false t ∧ c.rest = t ++ start.rest ∧ start.line = c.line + t.count '\n'
  fragment : ∃ a cs, start.rest = a :: cs ∧ isBlank a = false ∧ a ≠ '#'

/-- Where a fragment starts, there skipping stops, unless it comes to the end. -/
theorem Cursor.skips_iff {c start : Cursor} :
    c.Skips start ↔ c.skip = start ∧ start.rest ≠ [] := by
  constructor
  · rintro ⟨⟨t, trivia, text, lines⟩, a, cs, shape, blank, ne⟩
    refine ⟨?_, by simp [shape]⟩
    rw [skip, text, skipFrom_trivia trivia, shape, skipFrom_of_not_blank blank ne, ← shape, ← lines]
  · rintro ⟨rfl, inside⟩
    obtain ⟨a, cs, shape⟩ := List.exists_cons_of_ne_nil inside
    obtain ⟨t, text, lines, trivia⟩ := c.skip_spec
    rw [shape, List.isEmpty_cons] at trivia
    exact ⟨⟨t, trivia, text, lines⟩, a, cs, shape, isBlank_eq_false_of_skipFrom shape⟩

theorem Fragment.eq_lexed_iff {f : Fragment} {line : Nat} {result : Lexed} :
    result = f.lexed line ↔
      (∃ t, f.content = .ok t ∧ result = .ok ⟨t, String.ofList f.text, line⟩) ∨
        ∃ e, f.content = .error e ∧ result = .error ⟨e, line⟩ := by
  unfold lexed
  cases f.content <;> simp

/-- **The lexer implements its token grammar by longest match.** Wherever a fragment starts, the
grammar prescribes one fragment there. The next result is its token, with the class, the text and
the line of the fragment, or else its fault, and the cursor stands behind it. -/
theorem Cursor.next_eq_iff {c start : Cursor} (h : c.Skips start) (result : Lexed) (c' : Cursor) :
    c.next = (result, c') ↔ ∃ content text rest,
      Fragment.Greedy ⟨content, text, rest⟩ ∧ text ++ rest = start.rest ∧
        ((∃ t, content = .ok t ∧ result = .ok ⟨t, String.ofList text, start.line⟩) ∨
          ∃ e, content = .error e ∧ result = .error ⟨e, start.line⟩) ∧
        c' = ⟨rest, start.line + text.count '\n'⟩ := by
  obtain ⟨rfl, inside⟩ := skips_iff.mp h
  obtain ⟨a, cs, shape⟩ := List.exists_cons_of_ne_nil inside
  rw [next_of_cons shape, shape]
  constructor
  · rintro ⟨⟩
    exact ⟨_, _, _, Fragment.greedy_scan a cs, Fragment.scan_text_append_rest a cs,
      Fragment.eq_lexed_iff.mp rfl, rfl⟩
  · rintro ⟨content, text, rest, greedy, whole, packed, rfl⟩
    obtain rfl := Fragment.eq_lexed_iff (f := ⟨content, text, rest⟩).mpr packed
    rw [← Fragment.eq_scan_of_greedy greedy whole]
    rfl

/-- The digit behind a binary literal is not part of it, a word may start like a keyword, and a
marker has to have digits behind it. -/
theorem Cursor.next_eq_iff_mixed :
    ((Cursor.ofSource "#\n 0b102").Skips ⟨['0', 'b', '1', '0', '2'], 2⟩ ∧
      Fragment.Greedy ⟨.ok .integer, ['0', 'b', '1', '0'], ['2']⟩ ∧
      (Cursor.ofSource "#\n 0b102").next = (.ok ⟨.integer, "0b10", 2⟩, ⟨['2'], 2⟩)) ∧
    ((Cursor.ofSource "\nfn_,").Skips ⟨['f', 'n', '_', ','], 2⟩ ∧
      Fragment.Greedy ⟨.ok .identifier, ['f', 'n', '_'], [',']⟩ ∧
      (Cursor.ofSource "\nfn_,").next = (.ok ⟨.identifier, "fn_", 2⟩, ⟨[','], 2⟩)) ∧
    ((Cursor.ofSource " 0xg").Skips ⟨['0', 'x', 'g'], 1⟩ ∧
      Fragment.Greedy ⟨.error (.noDigits .hexadecimal), ['0', 'x'], ['g']⟩ ∧
      (Cursor.ofSource " 0xg").next = (.error ⟨.noDigits .hexadecimal, 1⟩, ⟨['g'], 1⟩)) := by
  have numeral := Fragment.greedy_scan '0' ['b', '1', '0', '2']
  have word := Fragment.greedy_scan 'f' ['n', '_', ',']
  have fault := Fragment.greedy_scan '0' ['x', 'g']
  have atNumeral : (Cursor.ofSource "#\n 0b102").Skips ⟨['0', 'b', '1', '0', '2'], 2⟩ :=
    skips_iff.mpr ⟨by decide, by decide⟩
  have atWord : (Cursor.ofSource "\nfn_,").Skips ⟨['f', 'n', '_', ','], 2⟩ :=
    skips_iff.mpr ⟨by decide, by decide⟩
  have atFault : (Cursor.ofSource " 0xg").Skips ⟨['0', 'x', 'g'], 1⟩ :=
    skips_iff.mpr ⟨by decide, by decide⟩
  refine ⟨⟨atNumeral, numeral, ?_⟩, ⟨atWord, word, ?_⟩, ⟨atFault, fault, ?_⟩⟩
  · exact (next_eq_iff atNumeral _ _).mpr ⟨_, _, _, numeral, rfl, .inl ⟨.integer, rfl, rfl⟩, rfl⟩
  · exact (next_eq_iff atWord _ _).mpr ⟨_, _, _, word, rfl, .inl ⟨.identifier, rfl, rfl⟩, rfl⟩
  · exact (next_eq_iff atFault _ _).mpr
      ⟨_, _, _, fault, rfl, .inr ⟨.noDigits .hexadecimal, rfl, rfl⟩, rfl⟩

end DeoLang
