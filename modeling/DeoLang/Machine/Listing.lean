import DeoLang.Machine.Memory
import DeoLang.Machine.Opcode

/-!
# Listings of images

* `Line`: what a listing says about one instruction.
* `Reader`: a place in an image. `Reader.next` gives the text of the instruction there.
* `Reader.listing`: the text of the whole image, one line for each instruction.

The address in front of a line is the one that the instruction has in memory. An instruction
whose immediate bytes run over the end of the image is the last one.
-/

namespace DeoLang

/-- What a listing says about one instruction. -/
inductive Line where
  | instruction (name : String) (operand : List Byte)
  | unknown (byte : Byte)
  | truncated (name : String)
  deriving Repr, DecidableEq

namespace Line

/-- The line for the instruction byte `b` with the bytes behind it. -/
def decode (b : Byte) (rest : List Byte) : Line :=
  match (Opcode.mk b).mnemonic? with
  | none => .unknown b
  | some name =>
    let operand := rest.take (Opcode.mk b).immediate
    if operand.length = (Opcode.mk b).immediate then .instruction name operand
    else .truncated name

/-- How many of the bytes behind the instruction byte the line takes up. -/
def extent (rest : List Byte) : Line → Nat
  | instruction _ operand => operand.length
  | unknown _ => 0
  | truncated _ => rest.length

/-- A byte in two hexadecimal digits. -/
def hexByte (b : Byte) : List Char :=
  hexFixed 2 b.toNat

/-- The text of the line behind its address. -/
def body : Line → List Char
  | instruction name [] => name.toList
  | instruction name operand => name.toList ++ ' ' :: operand.flatMap hexByte
  | unknown byte => "?? 0x".toList ++ hexByte byte
  | truncated name => name.toList ++ " <truncated>".toList

/-- The text of the line for an instruction at `offset` in its image. -/
def render (offset : Nat) (line : Line) : String :=
  String.ofList (hexFixed 4 (resetVector + offset) ++ ": ".toList ++ line.body ++ ['\n'])

end Line

/-- A place in an image: its offset and the bytes from there on. -/
structure Reader where
  image : List Byte
  offset : Nat
  rest : List Byte
  deriving Repr, DecidableEq

namespace Reader

/-- The start of an image. -/
def ofImage (image : List Byte) : Reader :=
  ⟨image, 0, image⟩

/-- Whether no instruction is left. -/
def atEnd (r : Reader) : Bool :=
  r.rest.isEmpty

/-- The place behind an instruction byte and `count` of the bytes in `rest` that follow it. -/
def behind (r : Reader) (rest : List Byte) (count : Nat) : Reader :=
  { r with offset := r.offset + 1 + count, rest := rest.drop count }

/-- The text of the instruction at a place, and the place behind it. There is no text at the end
of the image. -/
def next (r : Reader) : String × Reader :=
  match r.rest with
  | [] => ("", r)
  | b :: rest =>
    let line := Line.decode b rest
    (line.render r.offset, r.behind rest (line.extent rest))

/-- The texts from a place on, behind those in `before`, newest first. -/
def linesAfter (before : List String) (r : Reader) : List String :=
  match _h : r.rest with
  | [] => before.reverse
  | b :: rest =>
    let line := Line.decode b rest
    linesAfter (line.render r.offset :: before) (r.behind rest (line.extent rest))
termination_by r.rest.length
decreasing_by
  simp only [_h, behind, List.length_drop, List.length_cons]
  omega

/-- The texts of the instructions from a place on. -/
def lines (r : Reader) : List String :=
  linesAfter [] r

theorem linesAfter_of_nil (before : List String) {r : Reader} (h : r.rest = []) :
    r.linesAfter before = before.reverse := by
  rw [linesAfter]
  split
  · rfl
  · next h' => simp [h] at h'

theorem linesAfter_of_cons (before : List String) {r : Reader} {b : Byte} {rest : List Byte}
    (h : r.rest = b :: rest) : r.linesAfter before = r.next.2.linesAfter (r.next.1 :: before) := by
  rw [linesAfter]
  split
  · next h' => simp [h] at h'
  · next h' => rw [h] at h'; cases h'; simp only [next, h]

theorem linesAfter_append (before older : List String) (r : Reader) :
    r.linesAfter (before ++ older) = older.reverse ++ r.linesAfter before := by
  fun_induction linesAfter before r with
  | case1 before r h => rw [linesAfter_of_nil _ h, List.reverse_append]
  | case2 before r b rest h line ih =>
    rw [linesAfter_of_cons _ h]
    simp only [next, h]
    exact ih

theorem linesAfter_eq_append (before : List String) (r : Reader) :
    r.linesAfter before = before.reverse ++ r.lines :=
  linesAfter_append [] before r

theorem lines_of_nil {r : Reader} (h : r.rest = []) : r.lines = [] :=
  linesAfter_of_nil [] h

/-- Elsewhere the first line is that of the instruction at the place. -/
theorem lines_of_cons {r : Reader} {b : Byte} {rest : List Byte} (h : r.rest = b :: rest) :
    r.lines = r.next.1 :: r.next.2.lines := by
  rw [lines, linesAfter_of_cons _ h, linesAfter_eq_append]
  rfl

/-- The place after `count` instructions. -/
def skip : Nat → Reader → Reader
  | 0, r => r
  | count + 1, r => skip count r.next.2

/-- The texts of the next `count` instructions, each with the place behind it. -/
def take : Nat → Reader → List (String × Reader)
  | 0, _ => []
  | count + 1, r => r.next :: take count r.next.2

/-- The start of the image that a place is in. -/
def rewind (r : Reader) : Reader :=
  ofImage r.image

/-- The text of the whole image that a place is in, one line for each instruction. -/
def listing (r : Reader) : String :=
  String.join r.rewind.lines

/-- The place behind the last instruction of the image. -/
def ending (r : Reader) : Reader :=
  { r with offset := r.image.length, rest := [] }

end Reader

/-- The text of an image, one line for each instruction. -/
def listing (image : List Byte) : String :=
  (Reader.ofImage image).listing

end DeoLang
