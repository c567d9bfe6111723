/-!
# Hexadecimal text

* `hexDigit`: the lower-case digit of a number below sixteen.
* `hexFixed`: a number in a fixed count of digits, the high ones dropped.
* `hexMinimal`: a number in as few digits as it needs.
* `hexDigits`, `hexValue`: the sixteen digits, and the number that a text of them stands for.
* **`hexFixed_eq_iff`**: a text of fixed width is known by its digits and its value.
-/

namespace DeoLang

/-- The lower-case hexadecimal digit of `n % 16`. -/
def hexDigit (n : Nat) : Char :=
  Nat.digitChar (n % 16)

/-- The last `width` hexadecimal digits of `n`, most significant first. -/
def hexFixed : Nat → Nat → List Char
  | 0, _ => []
  | width + 1, n => hexFixed width (n / 16) ++ [hexDigit n]

/-- The hexadecimal digits of `n` without leading zeros; zero is the single digit `0`. -/
def hexMinimal (n : Nat) : List Char :=
  Nat.toDigits 16 n

/-- The sixteen digits, each at the place of its value. -/
def hexDigits : List Char :=
  ['0', '1', '2', '3', '4', '5', '6', '7', '8', '9', 'a', 'b', 'c', 'd', 'e', 'f']

/-- The number that a text of digits stands for in base sixteen. -/
def hexValue (cs : List Char) : Nat :=
  cs.foldl (fun value c => 16 * value + hexDigits.idxOf c) 0

theorem hexValue_append_singleton (cs : List Char) (c : Char) :
    hexValue (cs ++ [c]) = 16 * hexValue cs + hexDigits.idxOf c := by
  rw [hexValue, List.foldl_append]
  rfl

theorem hexDigit_eq_iff {n : Nat} {c : Char} :
    hexDigit n = c ↔ c ∈ hexDigits ∧ hexDigits.idxOf c = n % 16 := by
  have digit : ∀ k < 16, Nat.digitChar k ∈ hexDigits ∧ hexDigits.idxOf (Nat.digitChar k) = k := by
    decide
  have inverse : hexDigits.all (fun c => Nat.digitChar (hexDigits.idxOf c) == c) = true := rfl
  constructor
  · rintro rfl
    exact digit _ (Nat.mod_lt n (by decide))
  · rintro ⟨mem, place⟩
    rw [hexDigit, ← place, beq_iff_eq.mp (List.all_eq_true.mp inverse c mem)]

/-- **A text of fixed width is known by its digits and its value.** -/
theorem hexFixed_eq_iff {width n : Nat} {cs : List Char} : hexFixed width n = cs ↔
    cs.length = width ∧ (∀ c ∈ cs, c ∈ hexDigits) ∧ hexValue cs = n % Nat.pow 16 width := by
  induction width generalizing n cs with
  | zero =>
    rw [hexFixed, Nat.pow, Nat.mod_one, List.length_eq_zero_iff]
    constructor
    · rintro rfl
      exact ⟨rfl, by simp, rfl⟩
    · exact fun h => h.1.symm
  | succ width ih =>
    have power : Nat.pow 16 (width + 1) = 16 * Nat.pow 16 width := Nat.pow_succ'
    have value : n % Nat.pow 16 (width + 1) = 16 * (n / 16 % Nat.pow 16 width) + n % 16 := by
      rw [power, Nat.mod_mul, Nat.add_comm]
    rw [value]
    constructor
    · rintro rfl
      obtain ⟨length, digits, front⟩ := ih.mp (rfl : hexFixed width (n / 16) = _)
      obtain ⟨digit, last⟩ := hexDigit_eq_iff.mp (rfl : hexDigit n = _)
      rw [hexFixed, hexValue_append_singleton, front, last]
      refine ⟨by simp [length], fun c hc => ?_, rfl⟩
      rcases List.mem_append.mp hc with hc | hc
      · exact digits c hc
      · rwa [List.mem_singleton.mp hc]
    · rintro ⟨length, digits, whole⟩
      obtain ⟨front, last, rfl⟩ : ∃ front last, cs = front ++ [last] :=
        ⟨_, _, (List.dropLast_concat_getLast (by rintro rfl; cases length)).symm⟩
      obtain ⟨digits, digit⟩ := List.forall_mem_append.mp digits
      have digit := digit last List.mem_cons_self
      -- the last digit and the digits in front of it are the two parts of the value
      have bound : n % 16 < 16 := Nat.mod_lt n (by decide)
      have bound' : hexDigits.idxOf last < 16 := List.idxOf_lt_length_of_mem digit
      rw [hexValue_append_singleton] at whole
      rw [hexFixed, ih.mpr ⟨by simpa using length, digits, by omega⟩,
        hexDigit_eq_iff.mpr ⟨digit, by omega⟩]

@[simp] theorem length_hexFixed (width n : Nat) : (hexFixed width n).length = width :=
  (hexFixed_eq_iff.mp rfl).1

theorem isAlphanum_of_mem_hexDigits {c : Char} (h : c ∈ hexDigits) : c.isAlphanum = true := by
  have all : ∀ c ∈ hexDigits, c.isAlphanum = true := List.all_eq_true.mp rfl
  exact all c h

theorem isAlphanum_hexDigit (n : Nat) : (hexDigit n).isAlphanum = true :=
  isAlphanum_of_mem_hexDigits (hexDigit_eq_iff.mp rfl).1

theorem isAlphanum_of_mem_hexFixed {width n : Nat} {c : Char} (h : c ∈ hexFixed width n) :
    c.isAlphanum = true :=
  isAlphanum_of_mem_hexDigits ((hexFixed_eq_iff.mp rfl).2.1 c h)

/-- The digits in front of the last `width` do not matter. -/
theorem hexFixed_mod (width n : Nat) :
    hexFixed width (n % Nat.pow 16 width) = hexFixed width n := by
  obtain ⟨length, digits, value⟩ := hexFixed_eq_iff.mp (rfl : hexFixed width n = _)
  exact hexFixed_eq_iff.mpr ⟨length, digits, by rw [value, Nat.mod_mod]⟩

end DeoLang
