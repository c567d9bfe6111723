import Mathlib.Data.List.Basic
import DeoLang.Machine.Listing
import DeoLang.Proofs.Machine.Cpu

/-!
# The instructions of an image

* `image_induction`: an image is empty, or starts with an instruction that has all its immediate
  bytes, or is an opcode with too few bytes behind it.
* `Whole`: images in which no instruction lacks bytes.
* `IsLastOpcode`, `CutOff`: the last opcode of an image, and images that end within its immediate
  bytes. **`whole_iff_not_cutOff`**: all other images are whole.
* `Reader.lines_cons`, `Reader.lines_append`, `Reader.lines_cut`: the lines of a listing,
  instruction by instruction.
-/

namespace DeoLang

/-- Induction on the instructions of an image. -/
@[elab_as_elim]
theorem image_induction {motive : List Byte → Prop} (nil : motive [])
    (cons : ∀ b operand rest, operand.length = (Opcode.mk b).immediate → motive rest →
      motive (b :: (operand ++ rest)))
    (cut : ∀ b rest, rest.length < (Opcode.mk b).immediate → motive (b :: rest)) :
    ∀ image, motive image
  | [] => nil
  | b :: rest => by
    by_cases short : rest.length < (Opcode.mk b).immediate
    · exact cut b rest short
    · have length : (rest.take (Opcode.mk b).immediate).length = (Opcode.mk b).immediate := by
        rw [List.length_take]
        omega
      rw [← List.take_append_drop (Opcode.mk b).immediate rest]
      exact cons b _ _ length (image_induction nil cons cut _)
termination_by image => image.length
decreasing_by
  simp only [List.length_drop, List.length_cons]
  omega

/-- Bytes that are instructions, each with all its immediate bytes. -/
inductive Whole : List Byte → Prop where
  | nil : Whole []
  | cons {b : Byte} {operand rest : List Byte} : operand.length = (Opcode.mk b).immediate →
      Whole rest → Whole (b :: (operand ++ rest))

theorem whole_or_exists_cut (image : List Byte) : Whole image ∨
    ∃ front b rest, Whole front ∧ rest.length < (Opcode.mk b).immediate ∧
      image = front ++ b :: rest := by
  induction image using image_induction with
  | nil => exact .inl .nil
  | cons b operand rest length ih =>
    rcases ih with whole | ⟨front, b', rest', whole, short, rfl⟩
    · exact .inl (.cons length whole)
    · exact .inr ⟨b :: (operand ++ front), b', rest', .cons length whole, short, by simp⟩
  | cut b rest short => exact .inr ⟨[], b, rest, .nil, short, rfl⟩

/-! ## Opcodes -/

/-- Only the two instructions that push what is behind them have immediate bytes. -/
theorem eq_lit_or_eq_lit2 {o : Opcode} (h : o.immediate ≠ 0) : o = .lit ∨ o = .lit2 := by
  unfold Opcode.immediate at h
  split at h
  · next lit => exact .inl lit
  split at h
  · next lit2 => exact .inr lit2
  · exact absurd rfl h

theorem exists_mnemonic_of_immediate {o : Opcode} (h : o.immediate ≠ 0) :
    ∃ name, o.mnemonic? = some name := by
  rcases eq_lit_or_eq_lit2 h with rfl | rfl
  · exact ⟨"LIT", rfl⟩
  · exact ⟨"LIT2", rfl⟩

theorem immediate_of_mnemonic? {o : Opcode} (h : o.mnemonic? = none) : o.immediate = 0 := by
  by_contra ne
  obtain ⟨name, named⟩ := exists_mnemonic_of_immediate ne
  rw [h] at named
  cases named

namespace AtOpcode

variable {image : List Byte}

/-- The opcodes of an image do not overlap with the instructions of each other. -/
theorem next_le {i j : Nat} {opcode : Byte} (hi : AtOpcode image i) (hj : AtOpcode image j)
    (fetch : image[i]? = some opcode) (lt : i < j) :
    i + 1 + (Opcode.mk opcode).immediate ≤ j := by
  -- The opcode that leads to `j` cannot be in front of `i`, or `i` would be within its instruction.
  induction h : i + j using Nat.strongRecOn generalizing i j opcode with
  | ind n ih =>
    cases hj with
    | start => omega
    | @next j' opcode' hj' fetch' =>
      rcases Nat.lt_trichotomy i j' with before | rfl | behind
      · have := ih (i + j') (by omega) hi hj' fetch before rfl
        omega
      · rw [fetch] at fetch'
        cases fetch'
        exact Nat.le_refl _
      · have := ih (j' + i) (by omega) hj' hi fetch' behind rfl
        omega

theorem behind {front bytes rest : List Byte} (h : AtOpcode (front ++ (bytes ++ rest)) front.length)
    (whole : Whole bytes) : AtOpcode (front ++ (bytes ++ rest)) (front ++ bytes).length := by
  induction whole generalizing front with
  | nil => simpa using h
  | @cons b operand bytes length _ ih =>
    have fetch : (front ++ (b :: (operand ++ bytes) ++ rest))[front.length]? = some b := by simp
    have next := h.next fetch
    have assoc : front ++ (b :: (operand ++ bytes) ++ rest) =
        (front ++ b :: operand) ++ (bytes ++ rest) := by simp
    have offset : front.length + 1 + (Opcode.mk b).immediate = (front ++ b :: operand).length := by
      rw [List.length_append, List.length_cons]
      omega
    rw [offset, assoc] at next
    rw [assoc, show front ++ b :: (operand ++ bytes) = (front ++ b :: operand) ++ bytes by simp]
    exact ih next

end AtOpcode

theorem Whole.atOpcode {front : List Byte} (h : Whole front) (rest : List Byte) :
    AtOpcode (front ++ rest) front.length :=
  @AtOpcode.behind [] front rest .start h

/-- The offset of the last opcode of an image that is decoded from its start on. -/
def IsLastOpcode (image : List Byte) (offset : Nat) : Prop :=
  AtOpcode image offset ∧ offset < image.length ∧
    ∀ i, AtOpcode image i → i < image.length → i ≤ offset

/-- The last instruction of an image pushes immediate bytes, of which some are missing. -/
def CutOff (image : List Byte) : Prop :=
  ∃ offset opcode, IsLastOpcode image offset ∧ image[offset]? = some opcode ∧
    (Opcode.mk opcode = .lit ∨ Opcode.mk opcode = .lit2) ∧
    image.length < offset + 1 + (Opcode.mk opcode).immediate

theorem cutOff_append {front : List Byte} {b : Byte} {rest : List Byte} (whole : Whole front)
    (short : rest.length < (Opcode.mk b).immediate) : CutOff (front ++ b :: rest) := by
  have placed := whole.atOpcode (b :: rest)
  have fetch : (front ++ b :: rest)[front.length]? = some b := by simp
  have length : (front ++ b :: rest).length = front.length + 1 + rest.length := by
    rw [List.length_append, List.length_cons]
    omega
  refine ⟨front.length, b, ⟨placed, by omega, fun i hi lt => ?_⟩, fetch,
    eq_lit_or_eq_lit2 (by omega), by omega⟩
  by_contra behind
  have := placed.next_le hi fetch (by omega)
  omega

/-- **An image is whole unless it is cut off.** -/
theorem whole_iff_not_cutOff {image : List Byte} : Whole image ↔ ¬CutOff image := by
  constructor
  · rintro whole ⟨offset, opcode, ⟨placed, lt, -⟩, fetch, -, short⟩
    have ending : AtOpcode image image.length := by
      simpa using whole.atOpcode []
    have := placed.next_le ending fetch lt
    omega
  · intro notCut
    rcases whole_or_exists_cut image with whole | ⟨front, b, rest, whole, short, rfl⟩
    · exact whole
    · exact absurd (cutOff_append whole short) notCut

/-! ## The lines of a listing -/

/-- The line for an instruction with all its immediate bytes. -/
def Line.whole (b : Byte) (operand : List Byte) : Line :=
  match (Opcode.mk b).mnemonic? with
  | none => .unknown b
  | some name => .instruction name operand

namespace Line

variable {b : Byte} {operand rest : List Byte}

theorem decode_append (h : operand.length = (Opcode.mk b).immediate) (rest : List Byte) :
    decode b (operand ++ rest) = whole b operand := by
  unfold decode whole
  cases (Opcode.mk b).mnemonic? with
  | none => rfl
  | some name => simp [← h]

theorem extent_whole (h : operand.length = (Opcode.mk b).immediate) (rest : List Byte) :
    (whole b operand).extent rest = operand.length := by
  unfold whole
  cases name : (Opcode.mk b).mnemonic? with
  | none =>
    rw [h, immediate_of_mnemonic? name]
    rfl
  | some name => rfl

theorem decode_of_short (h : rest.length < (Opcode.mk b).immediate) :
    ∃ name, (Opcode.mk b).mnemonic? = some name ∧ decode b rest = .truncated name := by
  obtain ⟨name, named⟩ := exists_mnemonic_of_immediate (o := ⟨b⟩) (by omega)
  have few : ¬(rest.take (Opcode.mk b).immediate).length = (Opcode.mk b).immediate := by
    rw [List.length_take]
    omega
  exact ⟨name, named, by simp only [decode, named, if_neg few]⟩

end Line

namespace Reader

variable (image : List Byte) (offset : Nat)

theorem lines_cons {b : Byte} {operand : List Byte} (rest : List Byte)
    (h : operand.length = (Opcode.mk b).immediate) :
    lines ⟨image, offset, b :: (operand ++ rest)⟩ =
      (Line.whole b operand).render offset ::
        lines ⟨image, offset + 1 + operand.length, rest⟩ := by
  rw [lines_of_cons (r := ⟨image, offset, b :: (operand ++ rest)⟩) rfl]
  simp [next, behind, Line.decode_append h, Line.extent_whole h]

theorem lines_append {front : List Byte} (whole : Whole front) (rest : List Byte) :
    lines ⟨image, offset, front ++ rest⟩ =
      lines ⟨image, offset, front⟩ ++ lines ⟨image, offset + front.length, rest⟩ := by
  induction whole generalizing offset with
  | nil => simp [lines_of_nil]
  | @cons b operand front length _ ih =>
    have assoc : b :: (operand ++ front) ++ rest = b :: (operand ++ (front ++ rest)) := by simp
    have last : offset + (b :: (operand ++ front)).length =
        offset + 1 + operand.length + front.length := by
      rw [List.length_cons, List.length_append]
      omega
    rw [assoc, lines_cons _ _ _ length, lines_cons _ _ _ length, ih, last, List.cons_append]

theorem lines_cut {b : Byte} {rest : List Byte} (h : rest.length < (Opcode.mk b).immediate) :
    ∃ name, (Opcode.mk b).mnemonic? = some name ∧
      lines ⟨image, offset, b :: rest⟩ = [(Line.truncated name).render offset] := by
  obtain ⟨name, named, line⟩ := Line.decode_of_short h
  refine ⟨name, named, ?_⟩
  rw [lines_of_cons (r := ⟨image, offset, b :: rest⟩) rfl]
  simp [next, behind, line, Line.extent, lines_of_nil]

end Reader

end DeoLang
