import Mathlib
import DeoLang.Proofs.Machine.Instructions
import DeoLang.Token.Numeral

/-!
# Reading a listing back

* `readName`, `readHex`, `readLine`, `readListing`: the opcode of a name, the bytes of hexadecimal
  digits, and the bytes that a line and a text list. `readName_mnemonic?` says that no two opcodes
  have the same name.
* `Line.row`, `Reader.text`: the text of a line, and that of the lines from a place on.
* **`readListing_listing`**: the listing of a whole image is read as the image.
* `truncationMark`, `exists_listing_of_cutOff`: the listing of an image that is cut off.
* **`listing_faithful`**: a listing without a truncated line determines its image, and a truncated
  line is the last one and stands for immediate bytes that are missing.
-/

namespace DeoLang

/-! ## Names and digits -/

/-- The mode flag that a character of a suffix stands for. -/
def Opcode.flag : Char → Byte
  | '2' => shortFlag
  | 'k' => keepFlag
  | 'r' => returnFlag
  | _ => 0

/-- The opcode with a name: three letters for the operation, and a suffix for the mode. -/
def readName (name : List Char) : Byte :=
  (name.drop 3).foldl (fun b c => b ||| Opcode.flag c)
    (((Opcode.ofName? (String.ofList (name.take 3))).map Opcode.byte).getD 0)

/-- The name of an opcode is read as the opcode, and consists of letters and digits. -/
theorem readName_mnemonic? : ∀ (b : Byte), ∀ name ∈ (Opcode.mk b).mnemonic?,
    readName name.toList = b ∧ ∀ c ∈ name.toList, c.isAlphanum = true := by
  have named : ∀ b : Byte, ((Opcode.mk b).mnemonic?.all fun name =>
      readName name.toList == b && name.toList.all Char.isAlphanum) = true := by
    decide +kernel
  intro b name mem
  have both := named b
  rw [Option.mem_def.mp mem, Option.all_some, Bool.and_eq_true] at both
  exact ⟨eq_of_beq both.1, List.all_eq_true.mp both.2⟩

/-- The bytes that pairs of hexadecimal digits denote. -/
def readHex : List Char → List Byte
  | high :: low :: rest => BitVec.ofNat 8 (Base.hexadecimal.value [high, low]) :: readHex rest
  | _ => []

theorem readHex_hexByte_append (b : Byte) (rest : List Char) :
    readHex (Line.hexByte b ++ rest) = b :: readHex rest := by
  have value : ∀ b : Byte, BitVec.ofNat 8 (Base.hexadecimal.value (Line.hexByte b)) = b := by
    decide +kernel
  exact congrArg (· :: readHex rest) (value b)

theorem readHex_flatMap (bytes : List Byte) : readHex (bytes.flatMap Line.hexByte) = bytes := by
  induction bytes with
  | nil => rfl
  | cons b bytes ih => rw [List.flatMap_cons, readHex_hexByte_append, ih]

/-! ## Lines -/

/-- The bytes that the text of a line behind its address stands for. -/
def readBody (body : List Char) : List Byte :=
  if body.head? = some '?' then readHex (body.drop 5)
  else readName (body.takeWhile (· ≠ ' ')) :: readHex ((body.dropWhile (· ≠ ' ')).drop 1)

/-- The bytes that a line stands for. An address has six characters, with what is behind it. -/
def readLine (line : List Char) : List Byte :=
  if line.isEmpty then [] else readBody (line.drop 6)

/-- The bytes that a text lists. -/
def readListing (text : String) : List Byte :=
  (text.toList.splitOn '\n').flatMap readLine

/-- The characters of lines about instructions that have a name. -/
def isRowChar (c : Char) : Bool :=
  c.isAlphanum || c == ' ' || c == ':'

theorem isRowChar_of_isAlphanum {c : Char} (h : c.isAlphanum = true) : isRowChar c = true := by
  simp [isRowChar, h]

theorem isRowChar_of_mem_hexFixed {width n : Nat} {c : Char} (h : c ∈ hexFixed width n) :
    isRowChar c = true :=
  isRowChar_of_isAlphanum (isAlphanum_of_mem_hexFixed h)

theorem isRowChar_of_mem_mnemonic? {b : Byte} {name : String} {c : Char}
    (named : (Opcode.mk b).mnemonic? = some name) (h : c ∈ name.toList) : isRowChar c = true :=
  isRowChar_of_isAlphanum ((readName_mnemonic? b name named).2 c h)

namespace Line

/-- The text of a line without the line break. -/
def row (offset : Nat) (line : Line) : List Char :=
  hexFixed 4 (resetVector + offset) ++ ": ".toList ++ line.body

theorem toList_render (offset : Nat) (line : Line) :
    (line.render offset).toList = line.row offset ++ ['\n'] := by
  simp [render, row]

theorem isRowChar_of_mem_address {offset : Nat} {c : Char}
    (h : c ∈ hexFixed 4 (resetVector + offset) ++ ": ".toList) : isRowChar c = true := by
  rcases List.mem_append.mp h with digit | colon
  · exact isRowChar_of_mem_hexFixed digit
  · have chars : ": ".toList.all isRowChar = true := by decide
    exact List.all_eq_true.mp chars c colon

variable {b : Byte} {operand : List Byte} {offset : Nat} {c : Char}

theorem isRowChar_of_mem_instruction {name : String} (named : (Opcode.mk b).mnemonic? = some name)
    (h : c ∈ (instruction name operand).row offset) : isRowChar c = true := by
  rcases List.mem_append.mp h with address | body
  · exact isRowChar_of_mem_address address
  cases operand with
  | nil => exact isRowChar_of_mem_mnemonic? named body
  | cons b' operand =>
    rcases List.mem_append.mp body with letter | back
    · exact isRowChar_of_mem_mnemonic? named letter
    rcases List.mem_cons.mp back with rfl | digits
    · decide
    · obtain ⟨byte, -, digit⟩ := List.mem_flatMap.mp digits
      exact isRowChar_of_mem_hexFixed digit

theorem cases_of_mem_whole (h : c ∈ (whole b operand).row offset) :
    isRowChar c = true ∨ c = '?' := by
  unfold whole at h
  cases named : (Opcode.mk b).mnemonic? with
  | some name =>
    rw [named] at h
    exact .inl (isRowChar_of_mem_instruction named h)
  | none =>
    rw [named] at h
    rcases List.mem_append.mp h with address | body
    · exact .inl (isRowChar_of_mem_address address)
    rcases List.mem_append.mp body with mark | digit
    · have chars : ("?? 0x".toList.all fun c => isRowChar c || c == '?') = true := by decide
      simpa using List.all_eq_true.mp chars c mark
    · exact .inl (isRowChar_of_mem_hexFixed digit)

end Line

/-- **The text of a whole instruction is read as its bytes.** -/
theorem readBody_whole {b : Byte} {operand : List Byte}
    (h : operand.length = (Opcode.mk b).immediate) :
    readBody (Line.whole b operand).body = b :: operand := by
  unfold Line.whole
  cases named : (Opcode.mk b).mnemonic? with
  | none =>
    rw [immediate_of_mnemonic? named, List.length_eq_zero_iff] at h
    have bytes : readHex (Line.hexByte b) = [b] := by simpa using readHex_flatMap [b]
    rw [h]
    exact bytes
  | some name =>
    obtain ⟨opcode, letters⟩ := readName_mnemonic? b name named
    have noMark : (Line.instruction name operand).body.head? ≠ some '?' := by
      intro head
      have mem : '?' ∈ (Line.instruction name operand).row 0 :=
        List.mem_append_right _ (List.mem_of_head? head)
      exact absurd (Line.isRowChar_of_mem_instruction named mem) (by decide)
    have visible : ∀ c ∈ name.toList, decide (c ≠ ' ') = true := by
      intro c mem
      rw [decide_eq_true_eq]
      rintro rfl
      exact absurd (letters _ mem) (by decide)
    rw [readBody, if_neg noMark]
    cases operand with
    | nil =>
      have all : name.toList.takeWhile (· ≠ ' ') = name.toList :=
        List.takeWhile_eq_self_iff.mpr visible
      have nothing : name.toList.dropWhile (· ≠ ' ') = [] := List.dropWhile_eq_nil_iff.mpr visible
      rw [Line.body, all, nothing, opcode]
      rfl
    | cons b' operand =>
      rw [Line.body, List.takeWhile_append_of_pos visible, List.dropWhile_append_of_pos visible]
      · simp [opcode, readHex_hexByte_append, readHex_flatMap]
      · exact List.cons_ne_nil _ _

theorem readLine_row {b : Byte} {operand : List Byte} (offset : Nat)
    (h : operand.length = (Opcode.mk b).immediate) :
    readLine ((Line.whole b operand).row offset) = b :: operand := by
  have address : (hexFixed 4 (resetVector + offset) ++ ": ".toList).length = 6 := by simp
  have visible : ((Line.whole b operand).row offset).isEmpty = false := by
    rw [List.isEmpty_eq_false_iff, Line.row, ne_eq, List.append_eq_nil_iff,
      ← List.length_eq_zero_iff, address]
    omega
  rw [readLine, visible, Line.row, List.drop_left' address]
  exact readBody_whole h

/-! ## Texts -/

/-- The text of the lines from a place on. -/
def Reader.text (r : Reader) : List Char :=
  r.lines.flatMap String.toList

theorem toList_listing (image : List Byte) :
    (listing image).toList = Reader.text ⟨image, 0, image⟩ :=
  String.toList_join

section

variable (image : List Byte) (offset : Nat)

theorem text_nil : Reader.text ⟨image, offset, []⟩ = [] := by
  rw [Reader.text, Reader.lines_of_nil rfl, List.flatMap_nil]

theorem text_cons {b : Byte} {operand : List Byte} (rest : List Byte)
    (h : operand.length = (Opcode.mk b).immediate) :
    Reader.text ⟨image, offset, b :: (operand ++ rest)⟩ = (Line.whole b operand).row offset ++
      '\n' :: Reader.text ⟨image, offset + 1 + operand.length, rest⟩ := by
  rw [Reader.text, Reader.lines_cons _ _ _ h, List.flatMap_cons, Line.toList_render,
    List.append_assoc]
  rfl

theorem text_append {front : List Byte} (whole : Whole front) (rest : List Byte) :
    Reader.text ⟨image, offset, front ++ rest⟩ =
      Reader.text ⟨image, offset, front⟩ ++ Reader.text ⟨image, offset + front.length, rest⟩ := by
  rw [Reader.text, Reader.lines_append _ _ whole, List.flatMap_append]
  rfl

theorem readLine_text {bytes : List Byte} (h : Whole bytes) :
    ((Reader.text ⟨image, offset, bytes⟩).splitOn '\n').flatMap readLine = bytes := by
  induction h generalizing offset with
  | nil => rw [text_nil]; rfl
  | @cons b operand rest length _ ih =>
    have row : ∀ c ∈ (Line.whole b operand).row offset, (c == '\n') = false := by
      intro c mem
      rw [beq_eq_false_iff_ne]
      rintro rfl
      exact absurd (Line.cases_of_mem_whole mem) (by decide)
    have first := List.splitOnP_append_cons_of_forall_mem row '\n' rfl
    rw [text_cons _ _ _ length, List.splitOn, first, List.flatMap_cons, readLine_row _ length]
    exact congrArg (b :: operand ++ ·) (ih _)

theorem not_mem_text {bytes : List Byte} (h : Whole bytes) :
    '<' ∉ Reader.text ⟨image, offset, bytes⟩ := by
  induction h generalizing offset with
  | nil => rw [text_nil]; exact List.not_mem_nil
  | @cons b operand rest length _ ih =>
    rw [text_cons _ _ _ length, List.mem_append, List.mem_cons]
    rintro (row | ⟨⟨⟩⟩ | later)
    · exact absurd (Line.cases_of_mem_whole row) (by decide)
    · exact ih _ later

end

/-- **The listing of a whole image is read as the image.** -/
theorem readListing_listing {image : List Byte} (h : Whole image) :
    readListing (listing image) = image := by
  rw [readListing, toList_listing]
  exact readLine_text image 0 h

/-! ## Truncated lines -/

/-- What a listing says about an instruction that lacks immediate bytes. -/
def truncationMark : List Char :=
  "<truncated>".toList

theorem row_truncated (offset : Nat) (name : String) : (Line.truncated name).row offset =
    hexFixed 4 (resetVector + offset) ++ ": ".toList ++ (name.toList ++ [' ']) ++
      truncationMark := by
  have blank : " <truncated>".toList = [' '] ++ truncationMark := by decide
  rw [Line.row, Line.body, blank]
  simp only [List.append_assoc]

/-- The listing of an image that is cut off ends in a truncated line, and has no other one. -/
theorem exists_listing_of_cutOff {image : List Byte} (h : CutOff image) :
    ∃ front, (listing image).toList = front ++ (truncationMark ++ ['\n']) ∧ '<' ∉ front := by
  obtain whole | ⟨front, b, rest, whole, short, rfl⟩ := whole_or_exists_cut image
  · exact absurd h (whole_iff_not_cutOff.mp whole)
  obtain ⟨name, named, last⟩ := Reader.lines_cut (front ++ b :: rest) (0 + front.length) short
  refine ⟨Reader.text ⟨front ++ b :: rest, 0, front⟩ ++
    (hexFixed 4 (resetVector + (0 + front.length)) ++ ": ".toList ++ (name.toList ++ [' '])),
    ?_, ?_⟩
  · have line : Reader.text ⟨front ++ b :: rest, 0 + front.length, b :: rest⟩ =
        (Line.truncated name).row (0 + front.length) ++ ['\n'] := by
      rw [Reader.text, last, List.flatMap_singleton, Line.toList_render]
    rw [toList_listing, text_append _ _ whole, line, row_truncated]
    simp only [List.append_assoc]
  · intro mem
    rcases List.mem_append.mp mem with text | row
    · exact not_mem_text _ _ whole text
    rcases List.mem_append.mp row with address | word
    · exact absurd (Line.isRowChar_of_mem_address address) (by decide)
    rcases List.mem_append.mp word with letter | blank
    · exact absurd (isRowChar_of_mem_mnemonic? named letter) (by decide)
    · exact absurd blank (by decide)

theorem truncationMark_infix_iff {image : List Byte} :
    truncationMark <:+: (listing image).toList ↔ CutOff image := by
  constructor
  · rintro ⟨before, behind, text⟩
    by_contra notCut
    refine not_mem_text image 0 (whole_iff_not_cutOff.mpr notCut) ?_
    rw [← toList_listing, ← text]
    exact List.mem_append_left _ (List.mem_append_right _ List.mem_cons_self)
  · intro cut
    obtain ⟨front, text, -⟩ := exists_listing_of_cutOff cut
    exact ⟨front, ['\n'], by rw [text, List.append_assoc]⟩

/-- **A listing determines its image, unless it has a truncated line.** A listing has such a line
exactly when the last instruction of the image pushes immediate bytes of which some are missing, and
behind the words of such a line there is only the line break at the end of the listing. -/
theorem listing_faithful (image : List Byte) :
    (∀ other, listing other = listing image → ¬truncationMark <:+: (listing image).toList →
      other = image) ∧
    (truncationMark <:+: (listing image).toList ↔ CutOff image) ∧
    ∀ before behind, (listing image).toList = before ++ truncationMark ++ behind →
      behind = ['\n'] := by
  refine ⟨fun other same complete => ?_, truncationMark_infix_iff, fun before behind text => ?_⟩
  · have whole : Whole image := whole_iff_not_cutOff.mpr (mt truncationMark_infix_iff.mpr complete)
    rw [← same] at complete
    have wholeOther : Whole other :=
      whole_iff_not_cutOff.mpr (mt truncationMark_infix_iff.mpr complete)
    calc other = readListing (listing other) := (readListing_listing wholeOther).symm
      _ = readListing (listing image) := by rw [same]
      _ = image := readListing_listing whole
  · obtain ⟨front, last, first⟩ := exists_listing_of_cutOff
      (truncationMark_infix_iff.mp ⟨before, behind, text.symm⟩)
    -- No bracket is in front of the last line, so the one in `text` is that of the last line.
    rw [text] at last
    have mark : truncationMark = '<' :: "truncated>".toList := by decide
    have rest : '<' ∉ "truncated>".toList ++ ['\n'] := by decide
    rw [mark, List.append_assoc, List.cons_append, List.cons_append] at last
    obtain ⟨-, -, same⟩ := (List.append_cons_inj_of_notMem first rest).mp last.symm
    exact (List.append_cancel_left same).symm

theorem listing_faithful_litOfLit :
    (∀ other, listing other = "0100: LIT a0\n0102: BRK\n" → other = [0x80, 0xA0, 0x00]) ∧
      listing [0x80, 0xA0, 0xA0, 0x00] = "0100: LIT a0\n0102: LIT2 <truncated>\n" ∧
      CutOff [0x80, 0xA0, 0xA0, 0x00] := by
  have whole : listing [0x80, 0xA0, 0x00] = "0100: LIT a0\n0102: BRK\n" := by cbv
  have cut : listing [0x80, 0xA0, 0xA0, 0x00] = "0100: LIT a0\n0102: LIT2 <truncated>\n" := by cbv
  refine ⟨fun other same => ?_, cut, ?_⟩
  · refine (listing_faithful [0x80, 0xA0, 0x00]).1 other (same.trans whole.symm) ?_
    rw [whole]
    decide +kernel
  · refine (listing_faithful [0x80, 0xA0, 0xA0, 0x00]).2.1.mp ?_
    rw [cut]
    decide +kernel

end DeoLang
