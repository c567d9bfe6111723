import DeoLang.Proofs.Image.Run
import DeoLang.Proofs.Machine.Readback

/-!
# The listing of a program

* `hexFixed_toNat`: the hexadecimal digits of a word are those of its two bytes.
* `Instr.text`, `Instr.line`, `codeLines`: how instructions are written, and the lines for code that
  starts at some offset.
* `lines_codeBytes`: the bytes of code are listed as its instructions.
* **`listing_image`**: the listing of the image of a program has a line for each instruction and no
  other line.
-/

namespace DeoLang

/-! ## Digits of a word -/

theorem hexFixed_add (a b n : Nat) :
    hexFixed (a + b) n = hexFixed a (n / 16 ^ b) ++ hexFixed b n := by
  induction b generalizing n with
  | zero => simp [hexFixed]
  | succ b ih =>
    rw [← Nat.add_assoc, hexFixed, ih, hexFixed, Nat.div_div_eq_div_mul, ← Nat.pow_succ',
      List.append_assoc]

theorem hexFixed_toNat (w : Word) :
    hexFixed 4 w.toNat = Line.hexByte w.high ++ Line.hexByte w.low := by
  rw [Line.hexByte, Line.hexByte, high_eq_ofNat, low_eq_ofNat, BitVec.toNat_ofNat,
    BitVec.toNat_ofNat]
  exact (hexFixed_add 2 2 w.toNat).trans
    (congrArg₂ (· ++ ·) (hexFixed_mod 2 _).symm (hexFixed_mod 2 _).symm)

theorem toNat_toInt_emod (w : Word) : (w.toInt % 0x10000).toNat = w.toNat := by
  have ofInt := congrArg BitVec.toNat (BitVec.ofInt_toInt (x := w))
  rwa [BitVec.toNat_ofInt] at ofInt

/-! ## Lines of instructions -/

/-- The text of an instruction. A literal is written as the two's complement of its value. -/
def Instr.text : Instr → String
  | lit2 value => "LIT2 " ++ String.ofList (hexFixed 4 (value.toInt % 0x10000).toNat)
  | arith .add => "ADD2"
  | arith .sub => "SUB2"
  | arith .mul => "MUL2"
  | arith .div => "DIV2"
  | nip => "NIP"
  | deo2 => "DEO2"
  | brk => "BRK"

/-- The line for an instruction at `offset` in an image that is loaded at address `0x100`. -/
def Instr.line (offset : Nat) (i : Instr) : String :=
  String.ofList (hexFixed 4 ((0x100 + offset) % 0x10000)) ++ ": " ++ i.text ++ "\n"

/-- The lines for code that starts at `offset`. -/
def codeLines (offset : Nat) : List Instr → List String
  | [] => []
  | i :: code => i.line offset :: codeLines (offset + i.bytes.length) code

namespace Instr

theorem length_operand (i : Instr) :
    i.operand.length = (Opcode.mk i.opcode.byte).immediate := by
  cases i with
  | arith op => cases op <;> rfl
  | lit2 | nip | deo2 | brk => rfl

theorem body_whole (i : Instr) :
    (Line.whole i.opcode.byte i.operand).body = i.text.toList := by
  cases i with
  | lit2 value =>
    have whole : Line.whole (lit2 value).opcode.byte (lit2 value).operand =
        .instruction "LIT2" [value.high, value.low] := rfl
    rw [whole, text, toNat_toInt_emod, hexFixed_toNat]
    simp [Line.body]
  | arith op => cases op <;> rfl
  | nip | deo2 | brk => rfl

theorem render_whole (i : Instr) (offset : Nat) :
    (Line.whole i.opcode.byte i.operand).render offset = i.line offset := by
  have address : hexFixed 4 ((0x100 + offset) % 0x10000) = hexFixed 4 (resetVector + offset) :=
    hexFixed_mod 4 (0x100 + offset)
  rw [← String.toList_inj, Line.toList_render, Line.row, body_whole, line, address]
  simp

theorem exists_mnemonic (i : Instr) :
    ∃ name, (Opcode.mk i.opcode.byte).mnemonic? = some name := by
  cases i with
  | arith op => cases op <;> exact ⟨_, rfl⟩
  | lit2 | nip | deo2 | brk => exact ⟨_, rfl⟩

/-- The opcodes of programs have names, so their lines have no other characters. -/
theorem not_mem_line (i : Instr) (offset : Nat) {c : Char} (other : isRowChar c = false)
    (ne : c ≠ '\n') : c ∉ (i.line offset).toList := by
  obtain ⟨name, named⟩ := i.exists_mnemonic
  have whole : Line.whole i.opcode.byte i.operand = .instruction name i.operand := by
    simp only [Line.whole, named]
  rw [← render_whole, Line.toList_render, whole, List.mem_append, List.mem_singleton]
  rintro (row | rfl)
  · rw [Line.isRowChar_of_mem_instruction named row] at other
    cases other
  · exact ne rfl

end Instr

/-- **The bytes of code are listed instruction by instruction**, whatever bytes its literals
have. -/
theorem lines_codeBytes (image : List Byte) (offset : Nat) (code : List Instr) :
    Reader.lines ⟨image, offset, codeBytes code⟩ = codeLines offset code := by
  induction code generalizing offset with
  | nil => exact Reader.lines_of_nil rfl
  | cons i code ih =>
    have next : offset + 1 + i.operand.length = offset + i.bytes.length := by
      rw [Instr.bytes, List.length_cons]
      omega
    refine (Reader.lines_cons image offset (codeBytes code) i.length_operand).trans ?_
    rw [next, ih, i.render_whole, codeLines]

theorem not_mem_codeLines (code : List Instr) (offset : Nat) {c : Char}
    (other : isRowChar c = false) (ne : c ≠ '\n') :
    c ∉ (String.join (codeLines offset code)).toList := by
  rw [String.toList_join]
  induction code generalizing offset with
  | nil => exact List.not_mem_nil
  | cons i code ih =>
    rw [codeLines, List.flatMap_cons, List.mem_append, not_or]
    exact ⟨i.not_mem_line offset other ne, ih _⟩

/-- **The listing of a program is the listing of its code.** There is one line for each instruction,
in order: for each output the code of its value, that of its device, and the output itself, and a
halt at the end of each main block. No line is about an unknown opcode, and none is truncated. -/
theorem listing_image (p : Program) :
    listing p.image = String.join (codeLines 0 p.code) ∧
      ¬"??".toList <:+: (listing p.image).toList ∧
      ¬truncationMark <:+: (listing p.image).toList := by
  have text : listing p.image = String.join (codeLines 0 p.code) := by
    rw [image_eq_bytes]
    exact congrArg String.join (lines_codeBytes _ 0 p.code)
  refine ⟨text, fun unknown => ?_, fun truncated => ?_⟩
  · refine not_mem_codeLines (c := '?') p.code 0 (by decide) (by decide) ?_
    rw [← text]
    exact unknown.subset (by decide)
  · refine not_mem_codeLines (c := '<') p.code 0 (by decide) (by decide) ?_
    rw [← text]
    exact truncated.subset (by decide)

example : codeLines 0xFFFE [.lit2 (-1), .nip] = ["00fe: LIT2 ffff\n", "0101: NIP\n"] := by
  decide +kernel

end DeoLang
