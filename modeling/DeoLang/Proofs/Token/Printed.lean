import DeoLang.Proofs.Grammar.Tree
import DeoLang.Proofs.Token.Shift

/-!
# Printed tokens

* `readInt_decimal`: the decimal text of a number that is not too large is read as the number.
* `Prints`: a text that is lexed as given tokens, whatever comes behind it.
* `Prints.append`, `Prints.token`, `Prints.literal`: such texts one behind the other, and those of
  single tokens.
-/

namespace DeoLang

/-! ## Numbers -/

theorem isDigit_of_mem_decimal {n : Nat} {c : Char} (h : c ∈ (decimal n).toList) :
    Base.decimal.isDigit c = true := by
  rw [decimal, String.toList_ofList] at h
  have digit := Nat.isDigit_of_mem_toDigits (by decide) (by decide) h
  exact Base.isDigit_iff.mpr (decimalDigit_iff.mp digit)

theorem spells_decimal (n : Nat) : Spells .integer (decimal n).toList := by
  refine .decimal ⟨?_, fun c hc => Base.isDigit_iff.mp (isDigit_of_mem_decimal hc)⟩
  rw [decimal, String.toList_ofList]
  exact Nat.toDigits_ne_nil

theorem value_decimal (n : Nat) : Base.decimal.value (decimal n).toList = n := by
  have step : ∀ (m : Nat) (c : Char), c ∈ (decimal n).toList →
      m * 10 + (digitValue? c).getD 0 = 10 * m + (c.toNat - '0'.toNat) := by
    intro m c hc
    have digit : '0' ≤ c ∧ c ≤ '9' := Base.isDigit_iff.mp (isDigit_of_mem_decimal hc)
    rw [digitValue?, if_pos digit, Option.getD_some, Nat.mul_comm]
  rw [Base.value, show Base.decimal.radix = 10 from rfl, List.foldl_ext _ _ _ step, decimal,
    String.toList_ofList, ← Nat.ofDigitChars_eq_foldl]
  exact Nat.ofDigitChars_ten_toDigits

theorem readInt_decimal {n : Nat} (h : n ≤ 32767) :
    readInt (decimal n) = .ok (BitVec.ofNat 16 n) := by
  have noMarker : ∀ c ∈ (decimal n).toList, (Base.ofMarker? c).isNone = true := by
    intro c hc
    cases marker : Base.ofMarker? c with
    | none => rfl
    | some b =>
      have digit := decimalDigit_iff.mpr (Base.isDigit_iff.mp (isDigit_of_mem_decimal hc))
      rw [(Base.ofMarker?_eq_some_iff.mp marker).not_digit] at digit
      cases digit
  have split : splitMarker (decimal n).toList = some (.decimal, (decimal n).toList) := by
    rw [splitMarker, List.dropWhile_eq_nil_iff.mpr noMarker]
  have nonempty : (decimal n).toList.isEmpty = false := by
    rw [List.isEmpty_eq_false_iff]
    exact (spells_decimal n).ne_nil
  have digits : (decimal n).toList.all Base.decimal.isDigit = true :=
    List.all_eq_true.mpr fun c hc => isDigit_of_mem_decimal hc
  simp [readInt, split, nonempty, digits, value_decimal, h]

/-- A word that is not negative has the decimal text of a number. -/
theorem decimal_of_nonneg {w : Word} (h : 0 ≤ w.toInt) :
    w.decimal = decimal w.toNat ∧ w.toNat ≤ 32767 := by
  rw [BitVec.toInt_eq_toNat_cond] at h
  have small : 2 * w.toNat < 2 ^ 16 := by
    by_contra large
    rw [if_neg large] at h
    have := w.isLt
    omega
  refine ⟨?_, by omega⟩
  rw [Word.decimal, BitVec.toInt_eq_toNat_cond, if_pos small]
  rfl

/-! ## Texts of tokens -/

theorem Cursor.results_blank (cs : List Char) (line : Nat) :
    (Cursor.mk (' ' :: cs) line).results = (Cursor.mk cs line).results :=
  Cursor.results_eq_of_skip rfl

theorem Cursor.results_newline (cs : List Char) (line : Nat) :
    (Cursor.mk ('\n' :: cs) line).results = (Cursor.mk cs (line + 1)).results :=
  Cursor.results_eq_of_skip rfl

/-- Behind a word, `text` does not belong to it. -/
def Stops (text : List Char) : Prop :=
  ∀ c ∈ text.head?, isWordRest c = false

theorem Stops.nil : Stops [] := by
  simp [Stops]

theorem Stops.cons {c : Char} (h : isWordRest c = false) (cs : List Char) : Stops (c :: cs) := by
  rintro _ ⟨⟩
  exact h

theorem Stops.append {a b : List Char} (ha : Stops a) (hb : Stops b) : Stops (a ++ b) := by
  cases a with
  | nil => exact hb
  | cons c a => exact ha

/-- The text does not go on with a word, and on one line it is lexed as the tokens `ts`, whatever
stops words behind it. -/
structure Prints (line : Nat) (text : List Char) (ts : List Token) : Prop where
  stops : Stops text
  results : ∀ rest, Stops rest →
    (Cursor.mk (text ++ rest) line).results = ts.map .ok ++ (Cursor.mk rest line).results

namespace Prints

variable {line : Nat} {a b : List Char} {ts us : List Token}

theorem nil (line : Nat) : Prints line [] [] :=
  ⟨.nil, fun _ _ => rfl⟩

theorem eq_nil (h : Prints line [] ts) : ts = [] := by
  have same := h.results [] .nil
  rw [List.nil_append, List.self_eq_append_left] at same
  exact List.map_eq_nil_iff.mp same

theorem append (ha : Prints line a ts) (hb : Prints line b us) :
    Prints line (a ++ b) (ts ++ us) := by
  refine ⟨ha.stops.append hb.stops, fun rest stops => ?_⟩
  rw [List.append_assoc, ha.results _ (hb.stops.append stops), hb.results rest stops,
    List.map_append, List.append_assoc]

theorem blank (line : Nat) : Prints line [' '] [] :=
  ⟨.cons rfl [], fun rest _ => Cursor.results_blank rest line⟩

theorem token {t : Terminal} {text : List Char} (spells : Spells t text) (oneLine : '\n' ∉ text)
    (line : Nat) : Prints line (' ' :: text) [⟨t, String.ofList text, line⟩] := by
  refine ⟨.cons rfl text, fun rest stops => ?_⟩
  rw [Cursor.results_of_spells spells stops, List.count_eq_zero_of_not_mem oneLine]
  rfl

theorem of_blank (h : Prints line (' ' :: a) ts) (stops : Stops a) : Prints line a ts :=
  ⟨stops, fun rest hr => (Cursor.results_blank (a ++ rest) line).symm.trans (h.results rest hr)⟩

theorem literal {w : Word} (h : 0 ≤ w.toInt) (line : Nat) :
    ∃ t, Prints line (' ' :: w.decimal.toList) [t] ∧ t.value? = some w := by
  obtain ⟨text, small⟩ := decimal_of_nonneg h
  have spells := spells_decimal w.toNat
  have oneLine : '\n' ∉ (decimal w.toNat).toList := fun mem => by
    cases isDigit_of_mem_decimal mem
  rw [text]
  refine ⟨_, token spells oneLine line, ?_⟩
  rw [String.ofList_toList]
  simp [Token.value?, readInt_decimal small, Except.toOption]

end Prints

end DeoLang
