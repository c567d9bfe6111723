import Mathlib.Data.Nat.Digits.Defs
import DeoLang.Proofs.Token.Longest

/-!
# The values of numerals

* `digitNumber`, `Base.number`: the number that digits denote in positional notation;
  `value_eq_number`.
* `Numeral`: the texts of integer literals, with their base and digits. `numeral_iff` finds them
  through the first marker of a text.
* `readInt_of_numeral`, `readInt_of_not_numeral`: what is read from such a text and from others.
* **`readInt_exact`**: reading an integer literal is exact on every text.
-/

namespace DeoLang

/-! ## Positional notation -/

/-- What a digit counts for: its place among the digits, in either case. -/
def digitNumber (c : Char) : Nat :=
  "0123456789abcdef".toList.idxOf c.toLower

/-- The number that digits denote in a base, however many there are. The last one counts for
itself. -/
def Base.number (b : Base) (ds : List Char) : Nat :=
  Nat.ofDigits b.radix (ds.reverse.map digitNumber)

namespace Base

theorem Digit.hexadecimal {b : Base} {c : Char} (h : b.Digit c) : Base.hexadecimal.Digit c := by
  cases b with
  | decimal => exact .inl h
  | hexadecimal => exact h
  | binary => rcases h with rfl | rfl <;> exact .inl (by decide)

theorem digitValue?_eq_digitNumber {b : Base} {c : Char} (h : b.Digit c) :
    digitValue? c = some (digitNumber c) := by
  have ascii : ∀ n < 128, hexadecimal.isDigit (Char.ofNat n) = true →
      digitValue? (Char.ofNat n) = some (digitNumber (Char.ofNat n)) := by
    decide +kernel
  have small : c.toNat < 128 := by
    have digit := h.hexadecimal
    simp only [Digit, le_iff_toNat_le, Char.reduceToNat] at digit
    omega
  have digit := ascii c.toNat small
  rw [Char.ofNat_toNat] at digit
  exact digit (isDigit_iff.mpr h.hexadecimal)

theorem value_eq_number {b : Base} {ds : List Char} (h : ∀ c ∈ ds, b.Digit c) :
    b.value ds = b.number ds := by
  have step : ∀ (n : Nat) (c : Char), c ∈ ds →
      n * b.radix + (digitValue? c).getD 0 = digitNumber c + b.radix * n := by
    intro n c hc
    rw [digitValue?_eq_digitNumber (h c hc), Option.getD_some, Nat.mul_comm, Nat.add_comm]
  rw [value, List.foldl_ext _ _ _ step, number, Nat.ofDigits_eq_foldr, List.foldr_map,
    List.foldr_reverse]
  rfl

end Base

/-! ## The texts of integer literals -/

/-- The texts of integer literals with their base and digits: `[0-9]+`, `0x[0-9a-fA-F]+` and
`0b[01]+`. -/
inductive Numeral : Base → List Char → List Char → Prop where
  | decimal {ds : List Char} : Base.decimal.Digits ds → Numeral .decimal ds ds
  | marked {b : Base} {m : Char} {ds : List Char} : b.Marks m → b.Digits ds →
      Numeral b ds ('0' :: m :: ds)

theorem Numeral.digits {b : Base} {ds cs : List Char} (h : Numeral b ds cs) : b.Digits ds := by
  cases h with
  | decimal digits => exact digits
  | marked _ digits => exact digits

theorem splitMarker_of_digits {ds : List Char} (h : Base.decimal.Digits ds) :
    splitMarker ds = some (.decimal, ds) := by
  have unmarked : ∀ c ∈ ds, (Base.ofMarker? c).isNone = true := by
    intro c hc
    cases marker : Base.ofMarker? c with
    | none => rfl
    | some b =>
      have digit := decimalDigit_iff.mpr (h.2 c hc)
      rw [(Base.ofMarker?_eq_some_iff.mp marker).not_digit] at digit
      cases digit
  rw [splitMarker, List.dropWhile_eq_nil_iff.mpr unmarked]

theorem splitMarker_of_marks {b : Base} {m : Char} (h : b.Marks m) (ds : List Char) :
    splitMarker ('0' :: m :: ds) = some (b, ds) := by
  have zero : Base.ofMarker? '0' = none := rfl
  simp [splitMarker, Base.ofMarker?_eq_some_iff.mpr h, zero]

/-- A text falls apart at its first marker, which has a single zero in front of it. -/
theorem eq_of_splitMarker {cs ds : List Char} {b : Base} (h : splitMarker cs = some (b, ds)) :
    (b = .decimal ∧ ds = cs) ∨ ∃ m, b.Marks m ∧ cs = '0' :: m :: ds := by
  unfold splitMarker at h
  split at h
  · cases h
    exact .inl ⟨rfl, rfl⟩
  · next marker digits after =>
    split at h
    · next before =>
      obtain ⟨b', marks, pair⟩ := Option.map_eq_some_iff.mp h
      cases pair
      have whole := List.takeWhile_append_dropWhile (p := fun c => (Base.ofMarker? c).isNone)
        (l := cs)
      rw [before, after] at whole
      exact .inr ⟨marker, Base.ofMarker?_eq_some_iff.mp marks, whole.symm⟩
    · cases h

/-- The texts of integer literals are those with digits of the base behind their first marker. -/
theorem numeral_iff {b : Base} {ds cs : List Char} : Numeral b ds cs ↔
    splitMarker cs = some (b, ds) ∧ (ds.isEmpty || !ds.all b.isDigit) = false := by
  have digits : (ds.isEmpty || !ds.all b.isDigit) = false ↔ b.Digits ds := by
    simp [Base.Digits, Base.isDigit_iff]
  rw [digits]
  constructor
  · intro h
    refine ⟨?_, h.digits⟩
    cases h with
    | decimal digits => exact splitMarker_of_digits digits
    | marked marks _ => exact splitMarker_of_marks marks ds
  · rintro ⟨split, digits⟩
    rcases eq_of_splitMarker split with ⟨rfl, rfl⟩ | ⟨m, marks, rfl⟩
    · exact .decimal digits
    · exact .marked marks digits

/-! ## Reading -/

section

variable {s : String}

theorem readInt_of_numeral {b : Base} {ds : List Char} (h : Numeral b ds s.toList) :
    readInt s = if b.number ds ≤ 32767 then .ok (BitVec.ofNat 16 (b.number ds))
      else .error .overflow := by
  obtain ⟨split, digits⟩ := numeral_iff.mp h
  rw [← Base.value_eq_number h.digits.2]
  simp only [readInt, split, digits, Bool.false_eq_true, if_false]

theorem readInt_of_not_numeral (h : ∀ b ds, ¬Numeral b ds s.toList) :
    readInt s = .error (.malformed s) := by
  unfold readInt
  split
  · rfl
  · next b ds split =>
    have bad := h b ds
    rw [numeral_iff, not_and, Bool.not_eq_false] at bad
    rw [if_pos (bad split)]

theorem toInt_ofNat_eq {n : Nat} (h : n ≤ 32767) : (BitVec.ofNat 16 n).toInt = n := by
  have toNat : (BitVec.ofNat 16 n).toNat = n := by
    rw [BitVec.toNat_ofNat]
    exact Nat.mod_eq_of_lt (by omega)
  rw [BitVec.toInt_eq_toNat_of_lt (by omega), toNat]

variable (s)

/-- A text is that of an integer literal, and its number decides, or it is malformed. -/
theorem readInt_cases :
    (∃ b ds, Numeral b ds s.toList ∧ readInt s =
      if b.number ds ≤ 32767 then .ok (BitVec.ofNat 16 (b.number ds)) else .error .overflow) ∨
    (∀ b ds, ¬Numeral b ds s.toList) ∧ readInt s = .error (.malformed s) := by
  by_cases numeral : ∃ b ds, Numeral b ds s.toList
  · obtain ⟨b, ds, h⟩ := numeral
    exact .inl ⟨b, ds, h, readInt_of_numeral h⟩
  · simp only [not_exists] at numeral
    exact .inr ⟨numeral, readInt_of_not_numeral numeral⟩

theorem readInt_eq_ok_iff (v : Word) : readInt s = .ok v ↔
    ∃ b ds, Numeral b ds s.toList ∧ b.number ds ≤ 32767 ∧ v.toInt = b.number ds := by
  constructor
  · intro read
    rcases readInt_cases s with ⟨b, ds, h, eq⟩ | ⟨-, eq⟩
    · rw [eq] at read
      split at read
      · next small =>
        cases read
        exact ⟨b, ds, h, small, toInt_ofNat_eq small⟩
      · cases read
    · rw [eq] at read
      cases read
  · rintro ⟨b, ds, h, small, value⟩
    have same : BitVec.ofNat 16 (b.number ds) = v :=
      BitVec.eq_of_toInt_eq ((toInt_ofNat_eq small).trans value.symm)
    rw [readInt_of_numeral h, if_pos small, same]

theorem readInt_eq_overflow_iff : readInt s = .error .overflow ↔
    ∃ b ds, Numeral b ds s.toList ∧ 32767 < b.number ds := by
  constructor
  · intro read
    rcases readInt_cases s with ⟨b, ds, h, eq⟩ | ⟨-, eq⟩
    · rw [eq] at read
      split at read
      · cases read
      · next large => exact ⟨b, ds, h, by omega⟩
    · rw [eq] at read
      cases read
  · rintro ⟨b, ds, h, large⟩
    rw [readInt_of_numeral h, if_neg (by omega)]

theorem readInt_eq_malformed_iff (t : String) : readInt s = .error (.malformed t) ↔
    t = s ∧ ∀ b ds, ¬Numeral b ds s.toList := by
  constructor
  · intro read
    rcases readInt_cases s with ⟨b, ds, -, eq⟩ | ⟨notNumeral, eq⟩
    · rw [eq] at read
      split at read <;> cases read
    · rw [eq] at read
      cases read
      exact ⟨rfl, notNumeral⟩
  · rintro ⟨rfl, notNumeral⟩
    exact readInt_of_not_numeral notNumeral

/-- **Reading an integer literal is exact on every text.** The value is the number that the digits
denote in their base if it is at most 32767, and an overflow if it is larger, with any count of
digits. Every text that is no integer literal is malformed. -/
theorem readInt_exact :
    (∀ v, readInt s = .ok v ↔ ∃ b ds, Numeral b ds s.toList ∧ b.number ds ≤ 32767 ∧
      v.toInt = b.number ds) ∧
    (readInt s = .error .overflow ↔ ∃ b ds, Numeral b ds s.toList ∧ 32767 < b.number ds) ∧
    ∀ t, readInt s = .error (.malformed t) ↔ t = s ∧ ∀ b ds, ¬Numeral b ds s.toList :=
  ⟨readInt_eq_ok_iff s, readInt_eq_overflow_iff s, readInt_eq_malformed_iff s⟩

end

/-- A `b` behind the marker is a digit, and leading zeros do not count. -/
example : readInt "0x00000001b" = .ok 27 := by
  decide

end DeoLang
