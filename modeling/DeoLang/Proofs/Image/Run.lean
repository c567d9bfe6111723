import Mathlib
import DeoLang.Proofs.Image.Code
import DeoLang.Proofs.Machine.Cpu
import DeoLang.Proofs.Program.Findings

/-!
# Running the image of a program

* `codeOffsets`: where the opcodes of a list of instructions are in an image.
* `Effect`: what code does to the machine, wherever it stands in an image. `Effect.append` composes
  it; `effect_expr` and `effect_outputs` follow the parts of a program.
* `Output.written?`: what an output writes, by the values of its operands.
* **`run_image`**: the image of a program that passed its review halts behind the outputs of its
  first main block, which it has written, and leaves the stack as it was.
-/

namespace DeoLang

/-- The offsets of the opcodes of code that starts at `start`. -/
def codeOffsets (start : Nat) : List Instr → List Nat
  | [] => []
  | i :: rest => start :: codeOffsets (start + i.bytes.length) rest

theorem codeOffsets_append (start : Nat) (a b : List Instr) :
    codeOffsets start (a ++ b) =
      codeOffsets start a ++ codeOffsets (start + (codeBytes a).length) b := by
  induction a generalizing start with
  | nil => rfl
  | cons i a ih =>
    rw [List.cons_append, codeOffsets, codeOffsets, ih, codeBytes_cons, List.length_append,
      Nat.add_assoc, List.cons_append]

/-- Wherever `code` stands in an image, the machine runs through it from one stack and list of
written words to another. -/
def Effect (code : List Instr) (stack : List Byte) (written : List (Byte × Word))
    (stack' : List Byte) (written' : List (Byte × Word)) : Prop :=
  ∀ (image : List Byte) (offset : Nat), codeBytes code <+: image.drop offset →
    Steps image ⟨offset, stack, written⟩ (codeOffsets offset code)
      ⟨offset + (codeBytes code).length, stack', written'⟩

section Effects

variable {stack stack' stack'' : List Byte} {written written' written'' : List (Byte × Word)}

theorem opcode_of_prefix {i : Instr} {image : List Byte} {offset : Nat}
    (h : i.bytes <+: image.drop offset) : image[offset]? = some i.opcode.byte := by
  obtain ⟨rest, hrest⟩ := h
  have at0 := congrArg (·[0]?) hrest
  simpa [Instr.bytes] using at0.symm

theorem literal_of_prefix {w : Word} {image : List Byte} {offset : Nat}
    (h : (Instr.lit2 w).bytes <+: image.drop offset) :
    image[offset + 1]? = some w.high ∧ image[offset + 2]? = some w.low := by
  obtain ⟨rest, hrest⟩ := h
  have at1 := congrArg (·[1]?) hrest
  have at2 := congrArg (·[2]?) hrest
  simp only [Instr.bytes, Instr.operand, List.getElem?_drop] at at1 at2
  exact ⟨at1.symm, at2.symm⟩

theorem Effect.nil : Effect [] stack written stack written :=
  fun _ _ _ => .refl _

theorem Effect.append {a b : List Instr} (ha : Effect a stack written stack' written')
    (hb : Effect b stack' written' stack'' written'') :
    Effect (a ++ b) stack written stack'' written'' := by
  intro image offset h
  rw [codeBytes_append] at h
  obtain ⟨rest, hrest⟩ := h
  have first := ha image offset ⟨codeBytes b ++ rest, by rw [← hrest, List.append_assoc]⟩
  have second := hb image (offset + (codeBytes a).length) ⟨rest, by
    rw [← List.drop_drop, ← hrest, List.append_assoc, List.drop_left]⟩
  rw [codeOffsets_append, codeBytes_append, List.length_append, ← Nat.add_assoc]
  exact first.trans second

theorem Effect.of_step {i : Instr}
    (h : ∀ (image : List Byte) (offset : Nat), i.bytes <+: image.drop offset →
      Cpu.step image ⟨offset, stack, written⟩ =
        .next ⟨offset + i.bytes.length, stack', written'⟩) :
    Effect [i] stack written stack' written' := by
  intro image offset code
  rw [codeBytes_cons, codeBytes_nil, List.append_nil] at code ⊢
  exact .single (h image offset code)

theorem wordNat_ofNat (n : Nat) :
    wordNat (BitVec.ofNat 8 (n / 256)) (BitVec.ofNat 8 n) = n % 0x10000 := by
  simp only [wordNat, BitVec.toNat_ofNat]
  omega

theorem wordNat_toNat (w : Word) :
    wordNat (BitVec.ofNat 8 (w.toNat / 256)) (BitVec.ofNat 8 w.toNat) = w.toNat := by
  rw [wordNat_ofNat]
  exact Nat.mod_eq_of_lt w.isLt

theorem pushNat_mod (n : Nat) (stack : List Byte) :
    pushNat (n % 0x10000) stack = pushNat n stack := by
  have low : BitVec.ofNat 8 (n % 0x10000) = BitVec.ofNat 8 n := by
    apply BitVec.eq_of_toNat_eq
    simp only [BitVec.toNat_ofNat]
    omega
  have high : BitVec.ofNat 8 (n % 0x10000 / 256) = BitVec.ofNat 8 (n / 256) := by
    apply BitVec.eq_of_toNat_eq
    simp only [BitVec.toNat_ofNat]
    omega
  rw [pushNat, pushNat, low, high]

theorem high_eq_ofNat (w : Word) : w.high = BitVec.ofNat 8 (w.toNat / 256) := by
  apply BitVec.eq_of_toNat_eq
  simp [Word.high, Nat.shiftRight_eq_div_pow]

theorem low_eq_ofNat (w : Word) : w.low = BitVec.ofNat 8 w.toNat := by
  apply BitVec.eq_of_toNat_eq
  simp [Word.low]

theorem effect_lit2 (w : Word) :
    Effect [.lit2 w] stack written (pushNat w.toNat stack) written := by
  refine .of_step fun image offset code => ?_
  obtain ⟨high, low⟩ := literal_of_prefix code
  have literal : Cpu.literal image ⟨offset, stack, written⟩ =
      .next ⟨offset + 3, pushNat w.toNat stack, written⟩ := by
    rw [Cpu.literal, high, low, pushNat, ← high_eq_ofNat, ← low_eq_ofNat]
  rw [Cpu.step, opcode_of_prefix code]
  exact literal

/-- The machine computes what constant evaluation does. -/
theorem arithNat_of_apply {op : BinOp} {a b v : Word} (h : op.apply a b = .ok v) :
    ∃ n, arithNat op.opcode.byte a.toNat b.toNat = some n ∧ n % 0x10000 = v.toNat := by
  have ha := a.isLt
  have hb := b.isLt
  cases op with
  | add => cases h; exact ⟨_, rfl, (BitVec.toNat_add a b).symm⟩
  | sub =>
    cases h
    refine ⟨_, rfl, ?_⟩
    rw [BitVec.toNat_sub]
    omega
  | mul => cases h; exact ⟨_, rfl, (BitVec.toNat_mul a b).symm⟩
  | div =>
    have ne : b ≠ 0 := by
      rintro rfl
      simp [BinOp.apply] at h
    have pos : b.toNat ≠ 0 := fun e => ne (BitVec.eq_of_toNat_eq e)
    simp only [BinOp.apply, if_neg ne] at h
    cases h
    refine ⟨a.toNat / b.toNat, ?_, ?_⟩
    · rw [arithNat, if_neg (by decide), if_neg (by decide), if_neg (by decide), if_pos ⟨rfl, pos⟩]
    · rw [BitVec.udiv_eq, BitVec.toNat_udiv]
      exact Nat.mod_eq_of_lt (Nat.lt_of_le_of_lt (Nat.div_le_self _ _) ha)

theorem effect_arith {op : BinOp} {a b v : Word} (h : op.apply a b = .ok v) :
    Effect [.arith op] (pushNat b.toNat (pushNat a.toNat stack)) written
      (pushNat v.toNat stack) written := by
  obtain ⟨n, result, wraps⟩ := arithNat_of_apply h
  refine .of_step fun image offset code => ?_
  have arith : Cpu.arith op.opcode.byte ⟨offset, pushNat b.toNat (pushNat a.toNat stack), written⟩ =
      .next ⟨offset + 1, pushNat v.toNat stack, written⟩ := by
    simp only [Cpu.arith, pushNat, wordNat_toNat, result, Cpu.pass]
    rw [← pushNat, ← pushNat, ← wraps, pushNat_mod]
  rw [Cpu.step, opcode_of_prefix code]
  cases op <;> exact arith

theorem effect_nip (top below : Byte) :
    Effect [.nip] (top :: below :: stack) written (top :: stack) written := by
  refine .of_step fun image offset code => ?_
  rw [Cpu.step, opcode_of_prefix code]
  rfl

theorem effect_deo2 (device : Byte) (w : Word) :
    Effect [.deo2] (device :: pushNat w.toNat stack) written stack (written ++ [(device, w)]) := by
  refine .of_step fun image offset code => ?_
  have output : Cpu.output ⟨offset, device :: pushNat w.toNat stack, written⟩ =
      .next ⟨offset + 1, stack, written ++ [(device, w)]⟩ := by
    simp only [Cpu.output, Cpu.pass, pushNat, wordNat_toNat]
    rw [BitVec.ofNat_toNat, BitVec.setWidth_eq]
  rw [Cpu.step, opcode_of_prefix code]
  exact output

/-! ## Expressions and outputs -/

/-- **The code of an expression pushes its value.** -/
theorem effect_expr {e : Expr} {v : Word} (h : e.eval = .ok v) :
    Effect e.code stack written (pushNat v.toNat stack) written := by
  induction e generalizing v stack with
  | literal value =>
    cases h
    exact effect_lit2 value
  | binary op lhs rhs ihl ihr =>
    unfold Expr.eval at h
    split at h
    · cases h
    next a ha =>
    split at h
    · cases h
    next b hb => exact ((ihl ha).append (ihr hb)).append (effect_arith h)

/-- What an output writes: the value of its device modulo 2⁸ and its value modulo 2¹⁶. -/
def Output.written? (o : Output) : Option (Byte × Word) :=
  match o.device.eval, o.value.eval with
  | .ok device, .ok value => some (BitVec.ofInt 8 device.toInt, BitVec.ofInt 16 value.toInt)
  | _, _ => none

theorem ofInt_toInt_byte (w : Word) : BitVec.ofInt 8 w.toInt = BitVec.ofNat 8 w.toNat := by
  have h := BitVec.signExtend_eq_setWidth_of_le w (show 8 ≤ 16 by decide)
  rw [BitVec.signExtend] at h
  rw [h]
  apply BitVec.eq_of_toNat_eq
  simp

variable (stack written) in
theorem effect_output {o : Output} (device : ∃ v, o.device.eval = .ok v)
    (value : ∃ v, o.value.eval = .ok v) :
    ∃ w, o.written? = some w ∧ Effect o.code stack written stack (written ++ [w]) := by
  obtain ⟨d, hd⟩ := device
  obtain ⟨v, hv⟩ := value
  refine ⟨(BitVec.ofNat 8 d.toNat, v), ?_, ?_⟩
  · simp only [Output.written?, hd, hv, ofInt_toInt_byte, BitVec.ofInt_toInt]
  · have operands : Effect (o.value.code ++ o.device.code) stack written
        (pushNat d.toNat (pushNat v.toNat stack)) written :=
      (effect_expr hv).append (effect_expr hd)
    exact operands.append ((effect_nip _ _).append (effect_deo2 _ v))

variable (stack written) in
theorem effect_outputs {os : List Output}
    (h : ∀ o ∈ os, (∃ v, o.device.eval = .ok v) ∧ ∃ v, o.value.eval = .ok v) :
    ∃ ws, ws.map some = os.map Output.written? ∧
      Effect (os.flatMap Output.code) stack written stack (written ++ ws) := by
  induction os generalizing written with
  | nil => exact ⟨[], rfl, by rw [List.append_nil]; exact .nil⟩
  | cons o os ih =>
    obtain ⟨device, value⟩ := h o List.mem_cons_self
    obtain ⟨w, hw, first⟩ := effect_output stack written device value
    obtain ⟨ws, hws, later⟩ := ih (written ++ [w]) fun o ho => h o (List.mem_cons_of_mem _ ho)
    refine ⟨w :: ws, by rw [List.map_cons, List.map_cons, hw, hws], ?_⟩
    rw [List.append_assoc] at later
    exact first.append later

end Effects

/-! ## The run of an image -/

/-- **The image of a program that passed its review runs its first main block.** Started at its
first byte on any stack, it executes the opcodes of that block and no immediate byte, and halts. It
has written what the outputs of the block write, in order, and the stack is as it was. -/
theorem run_image {p : Program} {policy : Policy} {warnings : Report} {first : Block}
    {later : List Block} (mains : p.mains = first :: later)
    (accepted : p.review policy = .ok warnings) (stack : List Byte) :
    ∃ last : Cpu,
      Steps p.image ⟨0, stack, []⟩ (codeOffsets 0 (bodyCode first.body)) last ∧
      last.step p.image = .halt ∧
      last.stack = stack ∧
      last.written.map some = first.outputs.map Output.written? ∧
      ∀ i ∈ codeOffsets 0 (bodyCode first.body) ++ [last.offset], AtOpcode p.image i := by
  have values : ∀ o ∈ first.outputs, (∃ v, o.device.eval = .ok v) ∧ ∃ v, o.value.eval = .ok v := by
    intro o ho
    refine exists_eval_of_review accepted ?_
    rw [Program.outputs, mains, List.flatMap_cons]
    exact List.mem_append_left _ ho
  obtain ⟨ws, hws, effect⟩ := effect_outputs stack [] values
  have image : p.image = codeBytes (bodyCode first.body) ++
      Opcode.brk.byte :: codeBytes (later.flatMap Block.code) := by
    rw [image_eq_bytes, Program.code, mains, List.flatMap_cons, Block.code]
    simp [Instr.bytes, Instr.opcode, Instr.operand]
  have steps := effect p.image 0 ⟨_, by rw [List.drop_zero, image]; rfl⟩
  obtain ⟨executed, atEnd⟩ := steps.atOpcode .start
  refine ⟨_, steps, ?_, rfl, hws, ?_⟩
  · have fetch : p.image[0 + (codeBytes (bodyCode first.body)).length]? = some Opcode.brk.byte := by
      rw [image, Nat.zero_add, List.getElem?_append_right (Nat.le_refl _), Nat.sub_self]
      rfl
    exact Cpu.step_eq_halt fetch
  · intro i hi
    rcases List.mem_append.mp hi with hi | hi
    · exact executed i hi
    · rw [List.mem_singleton.mp hi]
      exact atEnd

/-- Two main blocks. The first one has a block within it, a device wider than a byte and a
division of a number that is negative when signed. -/
def twoMains : Program :=
  ⟨[⟨1, [.block 2 [.deo (.binary .mul (.literal 16) (.literal 17))
      (.binary .sub (.literal 1) (.literal 2))],
    .deo (.literal 0x18) (.binary .div (.literal (-2)) (.literal 2))]⟩, ⟨5, []⟩]⟩

theorem run_image_twoMains :
    twoMains.review ⟨.allow, .allow⟩ = .ok [] ∧
      ∃ last : Cpu,
        Steps twoMains.image ⟨0, [7], []⟩
          [0, 3, 6, 7, 10, 13, 14, 15, 16, 19, 22, 23, 26, 27] last ∧
        last.step twoMains.image = .halt ∧
        last.stack = [7] ∧
        last.written = [(0x10, 0xFFFF), (0x18, 0x7FFF)] := by
  have accepted : twoMains.review ⟨.allow, .allow⟩ = .ok [] := by cbv
  obtain ⟨last, steps, halt, stack, written, -⟩ := run_image (p := twoMains) rfl accepted [7]
  refine ⟨accepted, last, ?_, halt, stack, ?_⟩
  · convert steps using 1
    cbv
  · refine (List.map_inj_right fun _ _ => Option.some.inj).mp (written.trans ?_)
    cbv

end DeoLang
