import DeoLang.Proofs.Image.Code

/-!
# Composing images

* `bodyBytes`, `Block.bytes`: the bytes of statements, and those of a main block.
  `bodyBytes_append`, `bodyBytes_block` say that they are put together like the statements.
* `emitBody_vector`, `emitMains_empty`: what is written where, within main blocks and between them.
* `Unnests`, `Program.Unnests`: the statements of a nested block take the place of the block.
* **`image_composes`**: an image is put together from those of the main blocks.
-/

namespace DeoLang

/-! ## Statements -/

/-- The bytes that statements write. -/
def bodyBytes (body : List Stmt) : List Byte :=
  (emitBody body .empty).image

theorem bodyBytes_eq (body : List Stmt) : bodyBytes body = codeBytes (bodyCode body) := by
  rw [bodyBytes, emitBody_eq_append]
  simp [Emitter.append, Emitter.empty, Emitter.image]

theorem bodyBytes_block (line : Nat) (body rest : List Stmt) :
    bodyBytes (.block line body :: rest) = bodyBytes body ++ bodyBytes rest := by
  rw [bodyBytes_eq, bodyCode_block, codeBytes_append, ← bodyBytes_eq, ← bodyBytes_eq]

theorem bodyBytes_append (before after : List Stmt) :
    bodyBytes (before ++ after) = bodyBytes before ++ bodyBytes after := by
  simp only [bodyBytes_eq, bodyCode, outputs_append, List.flatMap_append, codeBytes_append]

/-- Within a main block statements write to the reset vector only. -/
theorem emitBody_vector (body : List Stmt) (vector rest : List Byte) :
    emitBody body ⟨vector, rest, .vector⟩ =
      ⟨(bodyBytes body).reverse ++ vector, rest, .vector⟩ := by
  rw [emitBody_eq_append, ← bodyBytes_eq]
  rfl

/-! ## Main blocks -/

/-- The bytes of a main block: those of its statements, and the one that halts. -/
def Block.bytes (b : Block) : List Byte :=
  bodyBytes b.body ++ [Opcode.brk.byte]

theorem codeBytes_code (b : Block) : codeBytes b.code = b.bytes := by
  rw [Block.code, codeBytes_append, Block.bytes, bodyBytes_eq]
  rfl

theorem codeBytes_flatMap_code (mains : List Block) :
    codeBytes (mains.flatMap Block.code) = mains.flatMap Block.bytes := by
  induction mains with
  | nil => rfl
  | cons b later ih =>
    rw [List.flatMap_cons, codeBytes_append, codeBytes_code, ih, List.flatMap_cons]

/-- **Between main blocks** everything is at the reset vector, and the rest is selected. -/
theorem emitMains_empty (mains : List Block) :
    emitMains mains .empty = .ok ⟨(mains.flatMap Block.bytes).reverse, [], .rest⟩ := by
  rw [emitMains_eq mains rfl, codeBytes_flatMap_code]
  simp [Emitter.empty]

theorem emitMains_append (front back : List Block) (e : Emitter) :
    emitMains (front ++ back) e = (emitMains front e).bind (emitMains back) := by
  induction front generalizing e with
  | nil => rfl
  | cons b front ih =>
    rw [List.cons_append, emitMains, emitMains]
    cases b.emit e with
    | error d => rfl
    | ok e' => exact ih e'

namespace Program

variable (p : Program)

theorem emitMains_mains : emitMains p.mains .empty = .ok p.emit := by
  unfold emit
  split
  · assumption
  · next d defect =>
    rw [emitMains_empty] at defect
    cases defect

theorem image_eq_flatMap : p.image = p.mains.flatMap Block.bytes := by
  rw [image_eq_bytes, code, codeBytes_flatMap_code]

theorem image_eq_nil_iff : p.image = [] ↔ p.mains = [] := by
  rw [image_eq_flatMap, List.flatMap_eq_nil_iff]
  constructor
  · intro noBytes
    refine List.eq_nil_iff_forall_not_mem.mpr fun b mem => ?_
    -- a main block has the byte that halts
    exact List.append_ne_nil_of_right_ne_nil _ (List.cons_ne_nil _ _) (noBytes b mem)
  · intro noMains
    simp [noMains]

end Program

/-! ## Nested blocks -/

/-- The statements of one nested block, however deep, take the place of the block. -/
inductive Unnests : List Stmt → List Stmt → Prop
  | here (before : List Stmt) (line : Nat) (body after : List Stmt) :
    Unnests (before ++ .block line body :: after) (before ++ body ++ after)
  | inside (before : List Stmt) (line : Nat) {body body' : List Stmt} (after : List Stmt) :
    Unnests body body' →
    Unnests (before ++ .block line body :: after) (before ++ .block line body' :: after)

theorem Unnests.bodyBytes_eq {body body' : List Stmt} (h : Unnests body body') :
    bodyBytes body = bodyBytes body' := by
  induction h with
  | here before line body after =>
    rw [bodyBytes_append, bodyBytes_block, bodyBytes_append, bodyBytes_append, List.append_assoc]
  | inside before line after _ ih =>
    rw [bodyBytes_append, bodyBytes_block, bodyBytes_append, bodyBytes_block, ih]

/-- One nested block of one main block is replaced by its statements. -/
inductive Program.Unnests : Program → Program → Prop
  | main (front : List Block) (line : Nat) {body body' : List Stmt} (back : List Block) :
    DeoLang.Unnests body body' →
    Unnests ⟨front ++ ⟨line, body⟩ :: back⟩ ⟨front ++ ⟨line, body'⟩ :: back⟩

theorem Program.Unnests.image_eq {p q : Program} (h : p.Unnests q) : p.image = q.image := by
  cases h with
  | main front line back unnests =>
    simp only [image_eq_flatMap, List.flatMap_append, List.flatMap_cons, Block.bytes,
      unnests.bodyBytes_eq]

/-- **An image is put together like its program.** It is the code of the main blocks one behind the
other, each with the byte that halts. No main block is a defect, each leaves the rest selected and
empty, and its statements write to the reset vector only. So the main blocks of two programs give
the images of both, nested blocks count for nothing, and just the program without main blocks has
an empty image. -/
theorem image_composes (p q : Program) :
    p.image = p.mains.flatMap Block.bytes ∧
    (∀ front back, p.mains = front ++ back → ∃ e,
      emitMains front .empty = .ok e ∧ emitMains back e = .ok p.emit ∧
      e.image = front.flatMap Block.bytes ∧ e.rest = [] ∧ e.target = .rest) ∧
    (∀ body vector, emitBody body ⟨vector, [], .vector⟩ =
      ⟨(bodyBytes body).reverse ++ vector, [], .vector⟩) ∧
    (Program.mk (p.mains ++ q.mains)).image = p.image ++ q.image ∧
    (p.Unnests q → p.image = q.image) ∧
    (p.image = [] ↔ p.mains = []) := by
  refine ⟨p.image_eq_flatMap, fun front back split => ?_, fun body vector => ?_, ?_,
    Program.Unnests.image_eq, p.image_eq_nil_iff⟩
  · have run := p.emitMains_mains
    rw [split, emitMains_append, emitMains_empty] at run
    exact ⟨_, emitMains_empty front, run, by simp [Emitter.image], rfl, rfl⟩
  · exact emitBody_vector body vector []
  · simp only [Program.image_eq_flatMap, List.flatMap_append]

/-- A main block with a nested one, in front of one that has the same statements. -/
theorem image_composes_nested :
    let deo := Stmt.deo (.literal 1) (.literal 2)
    let p : Program := ⟨[⟨1, [deo, .block 2 [deo]]⟩]⟩
    let q : Program := ⟨[⟨1, [deo, deo]⟩]⟩
    p.Unnests q ∧ p.image = q.image ∧ p.image.length = 17 ∧
      (Program.mk (p.mains ++ q.mains)).image = p.image ++ p.image ∧
      ∃ e, emitMains p.mains .empty = .ok e ∧
        emitMains q.mains e = .ok (Program.mk (p.mains ++ q.mains)).emit ∧
        e.rest = [] ∧ e.target = .rest := by
  intro deo p q
  have unnests : p.Unnests q := .main [] 1 [] (.here [deo] 2 [deo] [])
  obtain ⟨-, -, -, both, same, -⟩ := image_composes p q
  obtain ⟨-, between, -⟩ := image_composes ⟨p.mains ++ q.mains⟩ q
  obtain ⟨e, front, back, -, rest, target⟩ := between p.mains q.mains rfl
  exact ⟨unnests, same unnests, by cbv, by rw [both, same unnests], e, front, back, rest, target⟩

end DeoLang
