import DeoLang.Proofs.Token.Longest
import DeoLang.Proofs.Token.Partition

/-!
# Writing tokens down

* `Cursor.spelled_of_mem_results`: the tokens of a source have the texts of their classes.
* `Fragment.scan_of_spells`: such a text is scanned as its token wherever nothing behind it could
  belong to the token.
* `Token.plain`: a token apart from its line.
* `written`: the text of tokens, with a blank in front of each; `Cursor.results_of_spells`.
* **`Cursor.exists_results_written`**: tokens that are written down are read back.
-/

namespace DeoLang

/-- The text of a token is one that its class can have. -/
def Token.Spelled (t : Token) : Prop :=
  Spells t.terminal t.lexeme.toList

theorem Cursor.spelled_of_mem_results {c : Cursor} {t : Token} (h : .ok t ∈ c.results)
    (ne : t.terminal ≠ .ending) : t.Spelled := by
  induction c using Cursor.cursor_induction with
  | nil c ended =>
    rw [Cursor.results_of_nil ended, List.mem_singleton] at h
    cases h
    exact absurd rfl ne
  | cons c a cs starts ih =>
    rw [Cursor.results_of_cons starts] at h
    rcases List.mem_cons.mp h with first | later
    · obtain ⟨content, lexeme⟩ := Fragment.lexed_eq_ok first.symm
      have greedy := Fragment.greedy_scan a cs
      rw [Token.Spelled, lexeme]
      generalize Fragment.scan a cs = f at content greedy
      cases greedy with
      | token _ longest => cases content; exact longest.spells
      | noDigits => cases content
      | fault => cases content
    · exact ih later

namespace Fragment

theorem not_digit_of_stop {c : Char} (stop : isWordRest c = false) : c.isDigit = false := by
  rw [← Bool.not_eq_true, isWordRest_iff] at stop
  rw [← Bool.not_eq_true, decimalDigit_iff]
  exact fun digit => stop (.inr digit)

theorem not_marks_of_stop {c : Char} (stop : isWordRest c = false) (b : Base) : ¬b.Marks c := by
  rintro (⟨-, rfl⟩ | ⟨-, rfl⟩) <;> cases stop

theorem not_isDigit_of_stop {c : Char} (stop : isWordRest c = false) (b : Base) :
    b.isDigit c = false := by
  have zero : c = '0' ↔ c.toNat = 48 := Char.toNat_inj.symm
  have one : c = '1' ↔ c.toNat = 49 := Char.toNat_inj.symm
  rw [← Bool.not_eq_true, isWordRest_iff] at stop
  rw [← Bool.not_eq_true, Base.isDigit_iff]
  cases b <;>
    simp only [IsLetter, Base.Digit, le_iff_toNat_le, zero, one, Char.reduceToNat] at * <;> omega

variable {text rest : List Char} (stop : ∀ c ∈ rest.head?, isWordRest c = false)

include stop

theorem greedy_of_word {c : Char} {cs : List Char} {t : Terminal} (word : isWordStart c = true)
    (h : Spells t (c :: cs)) : Greedy ⟨.ok t, c :: cs, rest⟩ := by
  obtain ⟨letters, rfl⟩ := (spells_iff_of_isWordStart word).mp h
  obtain ⟨run, tail⟩ := span_append letters stop
  have greedy := greedy_word word (cs ++ rest)
  rwa [Fragment.word, run, tail] at greedy

/-- A text that a token can have is its longest one if nothing behind it could belong to a word. -/
theorem greedy_of_spells {t : Terminal} (h : Spells t text) : Greedy ⟨.ok t, text, rest⟩ := by
  have stopDigit : ∀ c ∈ rest.head?, c.isDigit = false := fun c hc => not_digit_of_stop (stop c hc)
  have h' := h
  cases h with
  | punct p => exact greedy_punct p rest
  | keyword k =>
    obtain ⟨c, cs, letters, start, -⟩ := k.exists_text_eq
    rw [letters] at h' ⊢
    exact greedy_of_word stop start h'
  | identifier letter => exact greedy_of_word stop (isWordStart_iff.mpr letter) h'
  | decimal digits =>
    refine greedy_run digits stopDigit ?_
    rintro b m _ rfl
    exact not_marks_of_stop (stop m rfl) b
  | @marked run ds b m digits marks ds' =>
    have all : ∀ d ∈ ds, b.isDigit d = true := fun d hd => Base.isDigit_iff.mpr (ds'.2 d hd)
    obtain ⟨taken, left⟩ := span_append all fun c hc => not_isDigit_of_stop (stop c hc) b
    have nonempty : (ds ++ rest).takeWhile b.isDigit ≠ [] := by rw [taken]; exact ds'.1
    have greedy := greedy_marked digits marks nonempty
    rwa [taken, left] at greedy
  | character escape ascii =>
    have greedy := greedy_closeQuote escape ('\'' :: rest)
    rwa [closeQuote, if_pos ascii] at greedy

/-- **A text that a token can have is scanned as the token.** -/
theorem scan_of_spells {t : Terminal} {c : Char} {cs : List Char} (h : Spells t (c :: cs)) :
    scan c (cs ++ rest) = ⟨.ok t, c :: cs, rest⟩ :=
  (eq_scan_of_greedy (greedy_of_spells stop h) rfl).symm

end Fragment

/-! ## Tokens with blanks between them -/

/-- The token apart from its line. -/
def Token.plain (t : Token) : Token :=
  { t with line := 0 }

/-- The text of tokens, with a blank in front of each. -/
def written (ts : List Token) : List Char :=
  ts.flatMap fun t => ' ' :: t.lexeme.toList

theorem stop_written (ts : List Token) : ∀ c ∈ (written ts).head?, isWordRest c = false := by
  cases ts with
  | nil => simp [written]
  | cons t ts =>
    rintro c ⟨⟩
    rfl

theorem Heads.visible {c : Char} {t : Terminal} (h : Heads c t) :
    0x20 < c.toNat ∧ c.toNat < 0x80 ∧ c ≠ '#' := by
  have underscore : c = '_' ↔ c.toNat = 95 := Char.toNat_inj.symm
  have hash : c = '#' ↔ c.toNat = 35 := Char.toNat_inj.symm
  have letter : isWordStart c = true → 0x20 < c.toNat ∧ c.toNat < 0x80 ∧ c ≠ '#' := by
    rw [isWordStart_iff]
    simp only [IsLetter, le_iff_toNat_le, underscore, hash, Char.reduceToNat, ne_eq]
    omega
  cases t with
  | punct p => subst h; cases p <;> decide
  | identifier => exact letter h
  | keyword => exact letter h
  | integer =>
    have digit := decimalDigit_iff.mp h
    simp only [Base.Digit, le_iff_toNat_le, hash, Char.reduceToNat, ne_eq] at digit ⊢
    omega
  | character => subst h; decide
  | ending => exact h.elim

theorem isBlank_eq_false {c : Char} (lower : 0x20 < c.toNat) (upper : c.toNat < 0x80) :
    isBlank c = false := by
  simp [isBlank, blankRanges, CodeRanges.contains]
  omega

namespace Cursor

theorem skip_blank {c : Char} {t : Terminal} (h : Heads c t) (cs : List Char) (line : Nat) :
    (Cursor.mk (' ' :: c :: cs) line).skip = ⟨c :: cs, line⟩ := by
  obtain ⟨lower, upper, noComment⟩ := h.visible
  have space : skipFrom false (' ' :: c :: cs) line = skipFrom false (c :: cs) line := rfl
  exact space.trans (skipFrom_of_not_blank (isBlank_eq_false lower upper) noComment cs line)

theorem results_of_spells {t : Terminal} {text rest : List Char} (spells : Spells t text)
    (stop : ∀ c ∈ rest.head?, isWordRest c = false) (line : Nat) :
    (Cursor.mk (' ' :: text ++ rest) line).results =
      .ok ⟨t, String.ofList text, line⟩ ::
        (Cursor.mk rest (line + text.count '\n')).results := by
  obtain ⟨c, cs, rfl⟩ := List.exists_cons_of_ne_nil spells.ne_nil
  have skip := skip_blank spells.heads (cs ++ rest) line
  have results := results_of_cons (congrArg Cursor.rest skip)
  rw [skip, Fragment.scan_of_spells stop spells] at results
  exact results

/-- **Tokens that are written down are read back**, wherever they come to stand. -/
theorem exists_results_written {ts : List Token} (spelled : ∀ t ∈ ts, t.Spelled) (line : Nat) :
    ∃ (us : List Token) (last : Nat),
      (Cursor.mk (written ts) line).results = us.map .ok ++ [.ok (Token.ending last)] ∧
      us.map Token.plain = ts.map Token.plain := by
  induction ts generalizing line with
  | nil => exact ⟨[], line, results_of_nil rfl, rfl⟩
  | cons t ts ih =>
    obtain ⟨first, later⟩ := List.forall_mem_cons.mp spelled
    obtain ⟨us, last, rest, same⟩ := ih later (line + t.lexeme.toList.count '\n')
    refine ⟨⟨t.terminal, t.lexeme, line⟩ :: us, last, ?_, ?_⟩
    · have results := results_of_spells first (stop_written ts) line
      rw [String.ofList_toList, rest] at results
      exact results
    · rw [List.map_cons, List.map_cons, same]
      rfl

end Cursor

end DeoLang
