import DeoLang.Build
import DeoLang.Proofs.Image.Decode
import DeoLang.Proofs.Program.Findings
import DeoLang.Proofs.Session.Parse
import DeoLang.Proofs.Token.Printed

/-!
# Reading printed programs

* `Program.sourceText`: the written form of a program, with blanks for the semicolons.
* `Program.reline`: the lines that the blocks of a program have there.
* `Program.Plain`: all operands are literals that are not negative.
* `exists_prints_body`, `exists_results_mains`: the tokens of a printed body and of printed main
  blocks have the tree that was printed.
* **`parse_sourceText`**: a plain program is read back, and its text has its image.
-/

namespace DeoLang

/-! ## The text of a program -/

/-- A semicolon becomes a blank. -/
def respace (c : Char) : Char :=
  if c = ';' then ' ' else c

/-- The written form of a program with blanks for the semicolons, which are no tokens. -/
def Program.sourceText (p : Program) : String :=
  p.render.map respace

/-- The letters of a text with blanks for the semicolons. -/
def respaced (text : String) : List Char :=
  text.toList.map respace

theorem respaced_append (a b : String) : respaced (a ++ b) = respaced a ++ respaced b := by
  rw [respaced, String.toList_append, List.map_append]
  rfl

theorem respaced_decimal {w : Word} (h : 0 ≤ w.toInt) : respaced w.decimal = w.decimal.toList := by
  have same : ∀ c ∈ w.decimal.toList, respace c = c := fun c hc => if_neg fun semicolon => by
    rw [(decimal_of_nonneg h).1, semicolon] at hc
    cases isDigit_of_mem_decimal hc
  exact (List.map_congr_left same).trans (List.map_id _)

/-- The text of the statements of a block, with a blank in front if there are any. -/
def bodyText : List Stmt → List Char
  | [] => []
  | stmt :: rest => ' ' :: respaced ("; ".intercalate (renderBody (stmt :: rest)))

theorem bodyText_singleton (stmt : Stmt) : bodyText [stmt] = ' ' :: respaced stmt.render := by
  rw [bodyText, renderBody_cons, renderBody, String.intercalate_singleton]

theorem bodyText_cons_cons (stmt next : Stmt) (rest : List Stmt) :
    bodyText (stmt :: next :: rest) =
      ' ' :: respaced stmt.render ++ ' ' :: bodyText (next :: rest) := by
  rw [bodyText, renderBody_cons, renderBody_cons, String.intercalate_cons_cons, respaced_append,
    respaced_append, List.append_assoc, ← renderBody_cons]
  rfl

theorem respaced_render_block (b : Block) :
    respaced b.render = '\x7b' :: bodyText b.body ++ [' ', '\x7d'] := by
  obtain ⟨line, body⟩ := b
  cases body with
  | nil => simp [Block.render, renderBody, renderBraces, respaced, respace, bodyText]
  | cons stmt rest =>
    have nonempty : (renderBody (stmt :: rest)).isEmpty = false := by rw [renderBody_cons]; rfl
    rw [Block.render, renderBraces, nonempty, if_neg Bool.false_ne_true, respaced_append,
      respaced_append]
    rfl

/-! ## The lines of a text -/

/-- The program with each main block on a line of its own, from the first line on. -/
def Program.reline (p : Program) : Program :=
  ⟨p.mains.mapIdx fun i b => b.reline (i + 1)⟩

theorem map_outputs_reline (p : Program) :
    p.reline.mains.map Block.outputs = p.mains.map Block.outputs := by
  refine List.ext_getElem (by simp [Program.reline]) fun i h h' => ?_
  simp [Program.reline, Block.outputs_reline]

theorem outputs_reline (p : Program) : p.reline.outputs = p.outputs := by
  rw [Program.outputs, Program.outputs, List.flatMap_def, List.flatMap_def, map_outputs_reline]

theorem image_reline (p : Program) : p.reline.image = p.image :=
  image_eq_of_outputs (map_outputs_reline p)

/-- Whether a program passes its review does not depend on its lines. -/
theorem exists_review_reline_iff (p : Program) (policy : Policy) :
    (∃ warnings, p.reline.review policy = .ok warnings) ↔
      ∃ warnings, p.review policy = .ok warnings := by
  have length : p.reline.mains.length = p.mains.length := List.length_mapIdx
  rw [exists_review_eq_ok_iff, exists_review_eq_ok_iff, exists_review_eq_error_iff,
    exists_review_eq_error_iff, outputs_reline, length]

/-! ## What is read -/

/-- The operands are literals that are not negative. -/
def Output.Plain (o : Output) : Prop :=
  ∃ x y : Word, o = ⟨.literal x, .literal y⟩ ∧ 0 ≤ x.toInt ∧ 0 ≤ y.toInt

/-- The operands of a program are literals that are not negative. -/
def Program.Plain (p : Program) : Prop :=
  ∀ o ∈ p.outputs, o.Plain

theorem exists_prints_deo {x y : Word} (hx : 0 ≤ x.toInt) (hy : 0 ≤ y.toInt) (line : Nat) :
    ∃ ts, Prints line (' ' :: respaced (Stmt.deo (.literal x) (.literal y)).render) ts ∧
      ∀ rest body, BodyTree rest body →
        BodyTree (ts ++ rest) (.deo (.literal x) (.literal y) :: body) := by
  obtain ⟨device, first, hdevice⟩ := Prints.literal hx line
  obtain ⟨value, second, hvalue⟩ := Prints.literal hy line
  have keyword := Prints.token (.keyword .deo) (by decide) line
  have comma := (Prints.token (.punct .comma) (by decide) line).of_blank (.cons rfl [])
  have text : ' ' :: respaced (Stmt.deo (.literal x) (.literal y)).render =
      (' ' :: Keyword.deo.text.toList) ++ ((' ' :: x.decimal.toList) ++
        ([Punct.comma.char] ++ (' ' :: y.decimal.toList))) := by
    have word : respaced "deo " = Keyword.deo.text.toList ++ [' '] := by decide
    have mark : respaced ", " = [Punct.comma.char, ' '] := by decide
    rw [Stmt.render, Expr.render, Expr.render, respaced_append, respaced_append, respaced_append,
      respaced_decimal hx, respaced_decimal hy, word, mark]
    simp
  rw [text]
  refine ⟨_, keyword.append (first.append (comma.append second)), fun rest body tree => ?_⟩
  exact .deo rfl hdevice rfl hvalue tree

theorem Prints.block {line : Nat} {b : Block} {ts : List Token}
    (body : Prints line (bodyText b.body) ts) (tree : BodyTree ts (relineBody line b.body)) :
    ∃ us, Prints line (' ' :: respaced b.render) us ∧ BlockTree us (b.reline line) := by
  have opening := Prints.token (.punct .braceOpen) (by decide) line
  have closing := Prints.token (.punct .braceClose) (by decide) line
  have text : ' ' :: respaced b.render =
      (' ' :: [Punct.braceOpen.char]) ++ bodyText b.body ++ (' ' :: [Punct.braceClose.char]) := by
    rw [respaced_render_block]
    rfl
  rw [text]
  exact ⟨_, (opening.append body).append closing, .braces rfl tree rfl⟩

theorem Prints.cons {line : Nat} {stmt : Stmt} {rest : List Stmt} {ts us : List Token}
    (first : Prints line (' ' :: respaced stmt.render) ts)
    (later : Prints line (bodyText rest) us) :
    Prints line (bodyText (stmt :: rest)) (ts ++ us) := by
  cases rest with
  | nil =>
    rw [later.eq_nil, List.append_nil, bodyText_singleton]
    exact first
  | cons next rest =>
    rw [bodyText_cons_cons]
    exact first.append ((Prints.blank line).append later)

/-- **A printed body is read as it was**, but for its lines. -/
theorem exists_prints_body (line : Nat) (body : List Stmt) (plain : ∀ o ∈ outputs body, o.Plain) :
    ∃ ts, Prints line (bodyText body) ts ∧ BodyTree ts (relineBody line body) := by
  induction body using body_induction with
  | nil =>
    rw [relineBody_nil]
    exact ⟨[], .nil line, .nil⟩
  | deo device value rest ih =>
    rw [outputs_deo] at plain
    obtain ⟨⟨x, y, operands, hx, hy⟩, later⟩ := List.forall_mem_cons.mp plain
    cases operands
    obtain ⟨ts, first, add⟩ := exists_prints_deo hx hy line
    obtain ⟨us, second, tree⟩ := ih later
    rw [relineBody_deo]
    exact ⟨_, first.cons second, add _ _ tree⟩
  | block line' body rest ihb ihr =>
    rw [outputs_block] at plain
    obtain ⟨inside, later⟩ := List.forall_mem_append.mp plain
    obtain ⟨ts, inner, tree⟩ := ihb inside
    obtain ⟨us, second, trees⟩ := ihr later
    obtain ⟨ts, first, block⟩ := Prints.block (b := ⟨line', body⟩) inner tree
    rw [relineBody_block]
    exact ⟨_, Prints.cons first second, block.body trees⟩

theorem exists_prints_main (line : Nat) (b : Block) (plain : ∀ o ∈ b.outputs, o.Plain) :
    ∃ keyword ts, Prints line (' ' :: respaced ("main " ++ b.render)) (keyword :: ts) ∧
      keyword.terminal = .keyword .main ∧ BlockTree ts (b.reline line) := by
  obtain ⟨ts, body, tree⟩ := exists_prints_body line b.body plain
  obtain ⟨us, block, tree⟩ := body.block tree
  have keyword := Prints.token (.keyword .main) (by decide) line
  have text : ' ' :: respaced ("main " ++ b.render) =
      (' ' :: Keyword.main.text.toList) ++ (' ' :: respaced b.render) := by
    have word : respaced "main " = Keyword.main.text.toList ++ [' '] := by decide
    rw [respaced_append, word]
    simp
  rw [text]
  exact ⟨_, us, keyword.append block, rfl, tree⟩

/-- The text of main blocks, one on each line. -/
def mainsText (mains : List Block) : List Char :=
  respaced ("\n".intercalate (mains.map fun b => "main " ++ b.render))

theorem mainsText_singleton (b : Block) : mainsText [b] = respaced ("main " ++ b.render) := by
  rw [mainsText, List.map_singleton, String.intercalate_singleton]

theorem mainsText_cons_cons (b next : Block) (rest : List Block) :
    mainsText (b :: next :: rest) =
      respaced ("main " ++ b.render) ++ '\n' :: mainsText (next :: rest) := by
  rw [mainsText, List.map_cons, List.map_cons, String.intercalate_cons_cons, respaced_append,
    respaced_append, List.append_assoc]
  rfl

/-- **Printed main blocks are read as they were**, each on the next line. -/
theorem exists_results_mains (mains : List Block) (plain : ∀ b ∈ mains, ∀ o ∈ b.outputs, o.Plain)
    (line : Nat) : ∃ ts last, (Cursor.mk ('\n' :: mainsText mains) line).results =
        ts.map .ok ++ [.ok (Token.ending last)] ∧
      ProgramTree ts (mains.mapIdx fun i b => b.reline (i + (line + 1))) := by
  induction mains generalizing line with
  | nil => exact ⟨[], _, Cursor.results_of_nil rfl, .nil⟩
  | cons b rest ih =>
    obtain ⟨first, later⟩ := List.forall_mem_cons.mp plain
    obtain ⟨keyword, ts, printed, isMain, tree⟩ := exists_prints_main (line + 1) b first
    -- behind the last main block the text ends without a line break
    have tail : ∃ text us last, mainsText (b :: rest) = respaced ("main " ++ b.render) ++ text ∧
        Stops text ∧ (Cursor.mk text (line + 1)).results =
          us.map .ok ++ [.ok (Token.ending last)] ∧
        ProgramTree us (rest.mapIdx fun i b => b.reline (i + (line + 1 + 1))) := by
      cases rest with
      | nil =>
        rw [mainsText_singleton]
        exact ⟨[], [], _, (List.append_nil _).symm, .nil, Cursor.results_of_nil rfl, .nil⟩
      | cons next rest =>
        obtain ⟨us, last, results, trees⟩ := ih later (line + 1)
        exact ⟨_, us, last, mainsText_cons_cons b next rest, .cons rfl _, results, trees⟩
    obtain ⟨text, us, last, whole, stops, results, trees⟩ := tail
    refine ⟨keyword :: ts ++ us, last, ?_, ?_⟩
    · rw [whole, Cursor.results_newline, ← Cursor.results_blank]
      refine (printed.results text stops).trans ?_
      rw [results, List.map_append, List.append_assoc]
    · rw [List.mapIdx_cons, Nat.zero_add]
      have lines : (fun i (b : Block) => b.reline (i + 1 + (line + 1))) =
          fun i b => b.reline (i + (line + 1 + 1)) := by
        funext i b
        rw [Nat.add_right_comm, Nat.add_assoc]
      rw [lines]
      exact tree.main isMain trees

/-- **What is printed can be read back.** A program of literals that are not negative is the
program of its written form, when the semicolons are left out, except that the blocks are on the
line of their main block. The image of the text is that of the program, provided that the program
passes its review and that the image fits in memory. -/
theorem parse_sourceText {p : Program} (h : p.Plain) :
    parse p.sourceText = .ok p.reline ∧ ∀ policy image,
      (∃ warnings, compile policy p.sourceText = .ok ⟨image, warnings⟩) ↔
        image = p.image ∧ (∃ warnings, p.review policy = .ok warnings) ∧
          fits p.image.length = true := by
  have parsed : parse p.sourceText = .ok p.reline := by
    obtain ⟨ts, last, results, tree⟩ := exists_results_mains p.mains
      (fun b hb o ho => h o (List.mem_flatMap.mpr ⟨b, hb, ho⟩)) 0
    refine parse_eq_ok_iff.mpr ⟨ts, ⟨last, ?_⟩, ?_⟩
    · rw [Cursor.ofSource, Program.sourceText, String.toList_map, ← results,
        Cursor.results_newline]
      rfl
    · simpa [Program.reline] using tree
  refine ⟨parsed, fun policy image => ?_⟩
  rw [← exists_review_reline_iff]
  cases review : p.reline.review policy with
  | error report => simp [compile, parsed, review]
  | ok warnings =>
    have built : compile policy p.sourceText = p.reline.build warnings := by
      simp only [compile, parsed, review]
    rw [built, Program.build, image_reline]
    cases fits p.image.length <;> simp [eq_comm]

/-- A program with a block in a block, empty blocks and two main blocks. -/
def nestedBlocks : Program :=
  ⟨[⟨7, [.deo (.literal 24) (.literal 97), .block 3 [], .block 9 [.deo (.literal 1)
    (.literal 32767), .block 0 []]]⟩, ⟨0, []⟩]⟩

theorem parse_sourceText_nestedBlocks :
    nestedBlocks.Plain ∧
      nestedBlocks.sourceText =
        "main \x7b deo 24, 97  \x7b \x7d  \x7b deo 1, 32767  \x7b \x7d \x7d \x7d\nmain \x7b \x7d" ∧
      parse nestedBlocks.sourceText = .ok nestedBlocks.reline ∧
      ∃ warnings, compile ⟨.warn, .warn⟩ nestedBlocks.sourceText =
        .ok ⟨nestedBlocks.image, warnings⟩ := by
  have plain : nestedBlocks.Plain := by
    simp [Program.Plain, Program.outputs, nestedBlocks, Block.outputs, Output.Plain]
  obtain ⟨parsed, compiled⟩ := parse_sourceText plain
  have review : ∃ warnings, nestedBlocks.review ⟨.warn, .warn⟩ = .ok warnings := by
    rw [exists_review_eq_ok_iff, exists_review_eq_error_iff]
    simp [Program.outputs, nestedBlocks, Block.outputs, Expr.eval]
  have size : nestedBlocks.image.length = 18 := by
    rw [length_image]
    simp [Program.outputs, nestedBlocks, Block.outputs, Output.size, Expr.size]
  exact ⟨plain, by cbv, parsed, (compiled _ _).mpr ⟨rfl, review, by rw [size]; rfl⟩⟩

end DeoLang
