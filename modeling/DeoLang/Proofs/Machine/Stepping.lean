import DeoLang.Proofs.Machine.Readback

/-!
# Stepping through an image

* `Line.decode_cases`, `Line.extent_decode`: the line for an opcode, and how many of the bytes
  behind the opcode it takes up.
* `Reader.Placed`: a reader has the bytes of its image from its offset on; `Placed.next`.
* `Reader.lines_skip`, `Reader.map_fst_take`: the lines from the place behind some steps on, and the
  texts of the steps.
* `lineOffset`, `StepsThrough`: the place behind some steps, and what stepping through an image has
  to do with the lines of its listing.
* **`stepping_agrees`**: stepping and listing agree on every image.
-/

namespace DeoLang

/-! ## Lines -/

namespace Line

section

variable (b : Byte) (rest : List Byte)

theorem decode_cases :
    (∃ operand behind, rest = operand ++ behind ∧ operand.length = (Opcode.mk b).immediate ∧
      decode b rest = whole b operand) ∨
    ∃ name, rest.length < (Opcode.mk b).immediate ∧ (Opcode.mk b).mnemonic? = some name ∧
      decode b rest = .truncated name := by
  by_cases short : rest.length < (Opcode.mk b).immediate
  · obtain ⟨name, named, line⟩ := decode_of_short short
    exact .inr ⟨name, short, named, line⟩
  · have length : (rest.take (Opcode.mk b).immediate).length = (Opcode.mk b).immediate := by
      rw [List.length_take]
      omega
    have line := decode_append length (rest.drop (Opcode.mk b).immediate)
    rw [List.take_append_drop] at line
    exact .inl ⟨_, _, (List.take_append_drop _ rest).symm, length, line⟩

theorem extent_decode :
    (decode b rest).extent rest = min (Opcode.mk b).immediate rest.length := by
  rcases decode_cases b rest with ⟨operand, behind, rfl, length, line⟩ | ⟨name, short, -, line⟩
  · rw [line, extent_whole length, List.length_append]
    omega
  · rw [line, extent]
    omega

theorem newline_not_mem_row (offset : Nat) : '\n' ∉ (decode b rest).row offset := by
  intro mem
  rcases decode_cases b rest with ⟨operand, behind, -, -, line⟩ | ⟨name, -, named, line⟩
  · rw [line] at mem
    exact absurd (cases_of_mem_whole mem) (by decide)
  · rw [line, row_truncated] at mem
    rcases List.mem_append.mp mem with front | mark
    · rcases List.mem_append.mp front with address | word
      · exact absurd (isRowChar_of_mem_address address) (by decide)
      rcases List.mem_append.mp word with letter | blank
      · exact absurd (isRowChar_of_mem_mnemonic? named letter) (by decide)
      · exact absurd blank (by decide)
    · exact absurd mark (by decide)

end

end Line

/-! ## Steps -/

namespace Reader

/-- The reader has the bytes of its image from its offset on. -/
structure Placed (r : Reader) : Prop where
  rest : r.rest = r.image.drop r.offset
  offset_le : r.offset ≤ r.image.length

theorem placed_ofImage (image : List Byte) : (ofImage image).Placed :=
  ⟨rfl, Nat.zero_le _⟩

section

variable {r : Reader}

theorem next_of_nil (h : r.rest = []) : r.next = ("", r) := by
  simp only [next, h]

theorem next_of_cons {b : Byte} {rest : List Byte} (h : r.rest = b :: rest) :
    r.next = ((Line.decode b rest).render r.offset,
      r.behind rest (min (Opcode.mk b).immediate rest.length)) := by
  simp only [next, h, Line.extent_decode]

theorem Placed.next (h : r.Placed) : r.next.2.Placed := by
  cases shape : r.rest with
  | nil => rwa [next_of_nil shape]
  | cons b rest =>
    have bytes := h.rest
    rw [shape] at bytes
    have length := congrArg List.length bytes
    rw [List.length_cons, List.length_drop] at length
    rw [next_of_cons shape]
    constructor
    · have tail := congrArg List.tail bytes
      rw [List.tail_cons, List.tail_drop] at tail
      change rest.drop _ = r.image.drop (r.offset + 1 + _)
      rw [tail, List.drop_drop]
    · change r.offset + 1 + min (Opcode.mk b).immediate rest.length ≤ r.image.length
      omega

theorem lines_eq_nil_iff : r.lines = [] ↔ r.rest = [] := by
  constructor
  · intro empty
    cases shape : r.rest with
    | nil => rfl
    | cons b rest =>
      rw [lines_of_cons shape] at empty
      cases empty
  · exact lines_of_nil

end

section

variable (r : Reader)

theorem image_next : r.next.2.image = r.image := by
  unfold next
  split <;> rfl

theorem lines_next : r.next.2.lines = r.lines.drop 1 := by
  cases shape : r.rest with
  | nil => rw [next_of_nil shape, lines_of_nil shape, List.drop_nil]
  | cons b rest => rw [lines_of_cons shape, List.drop_one, List.tail_cons]

variable (k : Nat)

theorem skip_succ : r.skip (k + 1) = (r.skip k).next.2 := by
  induction k generalizing r with
  | zero => rfl
  | succ k ih => exact ih r.next.2

theorem image_skip : (r.skip k).image = r.image := by
  induction k with
  | zero => rfl
  | succ k ih => rw [skip_succ, image_next, ih]

theorem Placed.skip {r : Reader} (h : r.Placed) (k : Nat) : (r.skip k).Placed := by
  induction k with
  | zero => exact h
  | succ k ih =>
    rw [skip_succ]
    exact ih.next

theorem lines_skip : (r.skip k).lines = r.lines.drop k := by
  induction k with
  | zero => rfl
  | succ k ih => rw [skip_succ, lines_next, ih, List.drop_drop]

theorem Placed.offset_eq_iff {r : Reader} (h : r.Placed) :
    r.offset = r.image.length ↔ r.atEnd = true := by
  have le := h.offset_le
  rw [atEnd, h.rest, List.isEmpty_iff, List.drop_eq_nil_iff]
  omega

theorem atEnd_skip_iff : (r.skip k).atEnd = true ↔ r.lines.length ≤ k := by
  rw [atEnd, List.isEmpty_iff, ← lines_eq_nil_iff, lines_skip, List.drop_eq_nil_iff]

/-- **The texts of steps are lines**, and nothing once there are no more of them. -/
theorem map_fst_take : (r.take k).map Prod.fst =
    r.lines.take k ++ List.replicate (k - r.lines.length) "" := by
  induction k generalizing r with
  | zero => simp [take]
  | succ k ih =>
    rw [take, List.map_cons, ih, lines_next]
    cases shape : r.rest with
    | nil => simp [next_of_nil shape, lines_of_nil shape, List.replicate_succ]
    | cons b rest => simp [lines_of_cons shape]

theorem map_snd_take : (r.take k).map Prod.snd = (List.range k).map fun i => r.skip (i + 1) := by
  induction k generalizing r with
  | zero => rfl
  | succ k ih =>
    rw [take, List.map_cons, ih, List.range_succ_eq_map, List.map_cons, List.map_map]
    rfl

/-- A line is that of the opcode at the place behind the steps before it. -/
theorem exists_line_eq {r : Reader} {k : Nat} {l : String} (h : r.lines[k]? = some l) :
    ∃ b rest, (r.skip k).rest = b :: rest ∧
      l = (Line.decode b rest).render (r.skip k).offset := by
  have later := r.lines_skip k
  rw [List.drop_eq_getElem_cons (List.getElem?_eq_some_iff.mp h).1,
    (List.getElem?_eq_some_iff.mp h).2] at later
  cases shape : (r.skip k).rest with
  | nil =>
    rw [lines_of_nil shape] at later
    cases later
  | cons b rest =>
    rw [lines_of_cons shape, next_of_cons shape] at later
    exact ⟨b, rest, rfl, (List.cons.inj later).1.symm⟩

end

end Reader

/-! ## Stepping and listing -/

/-- The offset of a reader that has gone some steps from the start of an image. -/
def lineOffset (image : List Byte) (k : Nat) : Nat :=
  ((Reader.ofImage image).skip k).offset

/-- What stepping through an image has to do with the lines of a listing. -/
structure StepsThrough (image : List Byte) (lines : List String) : Prop where
  /-- The listing consists of these lines. -/
  listing : DeoLang.listing image = String.join lines
  isLine : ∀ l ∈ lines, ∃ row, l.toList = row ++ ['\n'] ∧ '\n' ∉ row
  /-- Steps give the lines, and nothing once there are no more of them. -/
  texts : ∀ k, ((Reader.ofImage image).take k).map Prod.fst =
    lines.take k ++ List.replicate (k - lines.length) ""
  places : ∀ k, ((Reader.ofImage image).take k).map Prod.snd =
    (List.range k).map fun i => (Reader.ofImage image).skip (i + 1)
  atEnd : ∀ k, ((Reader.ofImage image).skip k).atEnd = true ↔ lines.length ≤ k
  /-- Each step goes over an opcode and what is there of its immediate bytes. -/
  start : lineOffset image 0 = 0
  step : ∀ k < lines.length, ∃ b, image[lineOffset image k]? = some b ∧
    lineOffset image (k + 1) = lineOffset image k + 1 +
      min (Opcode.mk b).immediate (image.length - (lineOffset image k + 1))
  increasing : ∀ k < lines.length, lineOffset image k < lineOffset image (k + 1)
  bounded : ∀ k, lineOffset image k ≤ image.length
  ending : ∀ k, lineOffset image k = image.length ↔ lines.length ≤ k
  address : ∀ k l, lines[k]? = some l → ∃ behind, l.toList =
    hexFixed 4 ((0x100 + lineOffset image k) % 0x10000) ++ ": ".toList ++ behind
  /-- The listing does not depend on the steps before it. -/
  relisted : ∀ k, ((Reader.ofImage image).skip k).listing = DeoLang.listing image

section

variable (image : List Byte)

theorem lineOffset_succ {k : Nat} (h : k < (Reader.ofImage image).lines.length) :
    ∃ b, image[lineOffset image k]? = some b ∧
      lineOffset image (k + 1) = lineOffset image k + 1 +
        min (Opcode.mk b).immediate (image.length - (lineOffset image k + 1)) := by
  obtain ⟨b, rest, shape, -⟩ := Reader.exists_line_eq (List.getElem?_eq_getElem h)
  have placed := (Reader.placed_ofImage image).skip k
  have bytes := placed.rest
  rw [shape, Reader.image_skip] at bytes
  have length := congrArg List.length bytes
  rw [List.length_cons, List.length_drop] at length
  refine ⟨b, ?_, ?_⟩
  · have first := congrArg List.head? bytes
    rw [List.head?_cons, List.head?_drop] at first
    exact first.symm
  · have count : rest.length = image.length - (lineOffset image k + 1) := by
      rw [lineOffset]
      change rest.length + 1 = image.length - _ at length
      omega
    rw [lineOffset, Reader.skip_succ, Reader.next_of_cons shape, count]
    rfl

/-- **Stepping and listing agree on every image.** -/
theorem stepping_agrees : ∃ lines, StepsThrough image lines := by
  refine ⟨(Reader.ofImage image).lines, ?_⟩
  exact {
    listing := rfl
    isLine := fun l mem => by
      obtain ⟨k, line⟩ := List.mem_iff_getElem?.mp mem
      obtain ⟨b, rest, -, rfl⟩ := Reader.exists_line_eq line
      exact ⟨_, Line.toList_render _ _, Line.newline_not_mem_row _ _ _⟩
    texts := Reader.map_fst_take _
    places := Reader.map_snd_take _
    atEnd := Reader.atEnd_skip_iff _
    start := rfl
    step := fun k lt => lineOffset_succ image lt
    increasing := fun k lt => by
      obtain ⟨b, -, next⟩ := lineOffset_succ image lt
      omega
    bounded := fun k => by
      have le := ((Reader.placed_ofImage image).skip k).offset_le
      rwa [Reader.image_skip] at le
    ending := fun k => by
      have ended := ((Reader.placed_ofImage image).skip k).offset_eq_iff
      rw [Reader.image_skip, Reader.atEnd_skip_iff] at ended
      exact ended
    address := fun k l line => by
      obtain ⟨b, rest, -, rfl⟩ := Reader.exists_line_eq line
      have digits : hexFixed 4 ((0x100 + lineOffset image k) % 0x10000) =
        hexFixed 4 (resetVector + lineOffset image k) := hexFixed_mod 4 _
      rw [digits, Line.toList_render, Line.row, List.append_assoc]
      exact ⟨_, rfl⟩
    relisted := fun k => by
      rw [Reader.listing, Reader.rewind, Reader.image_skip]
      rfl }

end

example : ((Reader.ofImage [0x01, 0xA0, 0x12]).take 3).map Prod.fst =
    ["0100: ?? 0x01\n", "0101: LIT2 <truncated>\n", ""] := by
  decide +kernel

end DeoLang
