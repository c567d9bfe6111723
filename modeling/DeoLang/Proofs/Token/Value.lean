import DeoLang.Proofs.Grammar.Tree
import DeoLang.Proofs.Token.Numeral
import DeoLang.Proofs.Token.Written

/-!
# The values of literal tokens

* `Mismarked`: the marker of a base behind other digits than a single zero.
  `Spells.numeral_or_mismarked` says that integer tokens have the texts of integer literals or
  these.
* `readInt_eq_malformed_iff_mismarked`, `exists_numeral_of_spells`: what is read from them.
* `exists_charValue_eq`: the value of a character token is the code of its character.
* `toInt_of_value?`: no value is negative.
-/

namespace DeoLang

/-! ## Integer tokens -/

/-- The marker of a base stands behind digits that are no single zero. -/
inductive Mismarked : List Char → Prop where
  | intro {run rest : List Char} {b : Base} {m : Char} : Base.decimal.Digits run → run ≠ ['0'] →
      b.Marks m → Mismarked (run ++ m :: rest)

theorem Spells.numeral_or_mismarked {cs : List Char} (h : Spells .integer cs) :
    (∃ b ds, Numeral b ds cs) ∨ Mismarked cs := by
  cases h with
  | decimal digits => exact .inl ⟨_, _, .decimal digits⟩
  | @marked run ds b m digits marks ds' =>
    by_cases zero : run = ['0']
    · subst zero
      exact .inl ⟨b, ds, .marked marks ds'⟩
    · exact .inr (.intro digits zero marks)

theorem Mismarked.not_numeral {cs : List Char} (h : Mismarked cs) (b : Base) (ds : List Char) :
    ¬Numeral b ds cs := by
  obtain ⟨digits, noZero, marks⟩ := h
  intro numeral
  generalize text : _ ++ _ :: _ = cs at numeral
  cases numeral with
  | decimal all =>
    subst text
    have digit := decimalDigit_iff.mpr (all.2 _ (List.mem_append_right _ List.mem_cons_self))
    rw [marks.not_digit] at digit
    cases digit
  | marked marks' _ =>
    -- both texts have their first marker in the same place
    have zero : Base.decimal.Digits ['0'] := ⟨by simp, by simp [Base.Digit]⟩
    exact noZero (Fragment.append_inj_of_digits digits zero (Fragment.stop_of_marks marks _)
      (Fragment.stop_of_marks marks' _) text).1

section

variable {s : String} (h : Spells .integer s.toList)

include h

theorem readInt_eq_malformed_iff_mismarked :
    readInt s = .error (.malformed s) ↔ Mismarked s.toList := by
  rw [readInt_eq_malformed_iff]
  constructor
  · rintro ⟨-, notNumeral⟩
    exact h.numeral_or_mismarked.resolve_left fun ⟨b, ds, numeral⟩ => notNumeral b ds numeral
  · exact fun mismarked => ⟨rfl, mismarked.not_numeral⟩

/-- The number of an integer token decides, unless its marker is in the wrong place. -/
theorem exists_numeral_of_spells (right : ¬Mismarked s.toList) : ∃ b ds, Numeral b ds s.toList ∧
    (b.number ds ≤ 32767 → ∃ v, readInt s = .ok v ∧ v.toInt = b.number ds) ∧
    (32767 < b.number ds → readInt s = .error .overflow) := by
  obtain ⟨b, ds, numeral⟩ := h.numeral_or_mismarked.resolve_right right
  refine ⟨b, ds, numeral, fun small => ⟨_, ?_, toInt_ofNat_eq small⟩, fun large => ?_⟩
  · rw [readInt_of_numeral numeral, if_pos small]
  · rw [readInt_of_numeral numeral, if_neg (Nat.not_le.mpr large)]

end

/-! ## Character tokens -/

theorem toInt_lastUtf8Byte (c : Char) :
    (lastUtf8Byte c).toInt = if c.toNat < 128 then c.toNat else 128 + c.toNat % 64 := by
  rw [lastUtf8Byte, toInt_ofNat_eq (by split <;> omega)]

/-- **The value of a character token is the code of its character**, quoted or escaped. -/
theorem exists_charValue_eq {s : String} (h : Spells .character s.toList) : ∃ before c v,
    s.toList = '\'' :: before ++ [c, '\''] ∧ Escape before c ∧ c.toNat < 128 ∧
      charValue s = some v ∧ v.toInt = c.toNat := by
  generalize text : s.toList = cs at h
  cases h with
  | @character before c escape ascii =>
    refine ⟨before, c, lastUtf8Byte c, rfl, escape, ascii, ?_, ?_⟩
    · rw [← charValue_quoted before, ← text, String.ofList_toList]
    · rw [toInt_lastUtf8Byte, if_pos ascii]

/-! ## Values -/

theorem exists_lastUtf8Byte_of_charValue {s : String} {w : Word} (h : charValue s = some w) :
    ∃ c, w = lastUtf8Byte c := by
  unfold charValue at h
  split at h
  · split at h
    · obtain ⟨c, -, rfl⟩ := Option.map_eq_some_iff.mp h
      exact ⟨c, rfl⟩
    · cases h
  · cases h

theorem toInt_of_value? {t : Token} {w : Word} (h : t.value? = some w) :
    0 ≤ w.toInt ∧ w.toInt ≤ 32767 := by
  unfold Token.value? at h
  split at h
  · cases read : readInt t.lexeme with
    | error e => simp [read, Except.toOption] at h
    | ok v =>
      obtain rfl : v = w := by simpa [read, Except.toOption] using h
      obtain ⟨b, ds, -, small, value⟩ := (readInt_eq_ok_iff _ _).mp read
      omega
  · obtain ⟨c, rfl⟩ := exists_lastUtf8Byte_of_charValue h
    rw [toInt_lastUtf8Byte]
    split <;> omega
  · cases h

end DeoLang
