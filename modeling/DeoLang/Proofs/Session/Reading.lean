import DeoLang.Proofs.Grammar.Tree
import DeoLang.Proofs.Session.Move
import DeoLang.Proofs.Token.Passage

/-!
# Reading without errors

* `Reads`: a session goes over tokens and has nothing to report on the way.
* **`stmts_of_reads`**, **`decls_of_reads`**: a session that reads over the tokens of a tree builds
  the tree.
* **`bodyReads`**, **`reads_of_decls`**: a session that has nothing to report has read over the
  tokens of the tree that it builds.
-/

namespace DeoLang

namespace Session

/-- The session goes over tokens. Errors are not held back, and no new ones come up. -/
inductive Reads : Session → List Token → Session → Prop where
  | nil {s : Session} : s.panic = false → Reads s [] s
  | cons {s s' : Session} {ts : List Token} : s.panic = false → s.window.errors = [] →
      Reads s.advance ts s' → Reads s (s.current :: ts) s'

namespace Reads

variable {s s' s'' : Session} {t : Token} {ts us : List Token}

theorem calm (h : Reads s ts s') : s.panic = false := by
  cases h with
  | nil calm => exact calm
  | cons calm => exact calm

theorem nil_iff : Reads s [] s' ↔ s = s' ∧ s.panic = false := by
  constructor
  · rintro ⟨calm⟩
    exact ⟨rfl, calm⟩
  · rintro ⟨rfl, calm⟩
    exact .nil calm

theorem cons_iff : Reads s (t :: ts) s' ↔
    t = s.current ∧ s.panic = false ∧ s.window.errors = [] ∧ Reads s.advance ts s' := by
  constructor
  · rintro (_ | ⟨calm, quiet, rest⟩)
    exact ⟨rfl, calm, quiet, rest⟩
  · rintro ⟨rfl, calm, quiet, rest⟩
    exact .cons calm quiet rest

theorem append (h : Reads s ts s') (h' : Reads s' us s'') : Reads s (ts ++ us) s'' := by
  induction h with
  | nil => exact h'
  | cons calm quiet _ ih => exact .cons calm quiet (ih h')

theorem exists_of_append (h : Reads s (ts ++ us) s'') : ∃ s', Reads s ts s' ∧ Reads s' us s'' := by
  induction ts generalizing s with
  | nil => exact ⟨s, .nil h.calm, h⟩
  | cons t ts ih =>
    rw [List.cons_append, cons_iff] at h
    obtain ⟨rfl, calm, quiet, rest⟩ := h
    obtain ⟨s', first, second⟩ := ih rest
    exact ⟨s', .cons calm quiet first, second⟩

theorem passes (h : Reads s ts s') : Passes s.window ts s'.window := by
  induction h with
  | nil => exact .nil _
  | cons _ quiet _ ih => exact .cons quiet ih

/-- Reading over tokens leaves the diagnostics alone. -/
theorem diagnostics_eq (h : Reads s ts s') : s'.diagnostics = s.diagnostics := by
  induction h with
  | nil => rfl
  | cons calm quiet _ ih =>
    rw [ih, diagnostics_advance, calm, quiet]
    exact List.append_nil _

end Reads

theorem panic_advance_eq_false {s : Session} (h : s.advance.panic = false) :
    s.panic = false ∧ s.window.errors = [] := by
  simpa [panic_advance] using h

/-- What follows an advance without errors can be read from in front of it. -/
theorem Reads.advance {s s' : Session} {ts : List Token} (h : Reads s.advance ts s') :
    Reads s (s.current :: ts) s' := by
  obtain ⟨calm, quiet⟩ := panic_advance_eq_false h.calm
  exact .cons calm quiet h

theorem exists_reads_of_passes {s : Session} {ts : List Token} {w : Window}
    (h : Passes s.window ts w) (calm : s.panic = false) : ∃ s', Reads s ts s' := by
  generalize start : s.window = v at h
  induction h generalizing s with
  | nil => exact ⟨s, .nil calm⟩
  | cons quiet _ ih =>
    subst start
    have calm' : s.advance.panic = false := by rw [panic_advance, calm, quiet]; rfl
    obtain ⟨s', rest⟩ := ih calm' rfl
    exact ⟨s', .cons calm quiet rest⟩

/-! ## Reading a tree -/

theorem check_iff {s : Session} {t : Terminal} : s.check t = true ↔ s.current.terminal = t :=
  decide_eq_true_iff

theorem atEnd_iff {s : Session} : s.atEnd = true ↔ s.current.terminal = .ending :=
  check_iff

theorem atEnd_eq_false_iff {s : Session} : s.atEnd = false ↔ s.current.terminal ≠ .ending := by
  rw [← Bool.not_eq_true, atEnd_iff]

theorem atBodyEnd_iff {s : Session} : s.atBodyEnd = true ↔
    s.current.terminal = .ending ∨ s.current.terminal = .punct .braceClose := by
  rw [atBodyEnd, Bool.or_eq_true, atEnd_iff, check_iff]

theorem atBodyEnd_eq_false_iff {s : Session} : s.atBodyEnd = false ↔
    s.current.terminal ≠ .ending ∧ s.current.terminal ≠ .punct .braceClose := by
  rw [← Bool.not_eq_true, atBodyEnd_iff, not_or]

theorem expect_of_check {s : Session} {t : Terminal} (h : s.current.terminal = t) :
    s.expect t = (some s.current, s.advance) := by
  rw [expect, if_pos (check_iff.mpr h)]

theorem literal_of_value? {s : Session} {w : Word} (h : s.current.value? = some w) :
    s.literal = (some w, s.advance) := by
  unfold Token.value? at h
  split at h
  · next integer =>
    simp only [literal, integer]
    cases read : readInt s.current.lexeme with
    | ok value => rw [read] at h; cases h; rfl
    | error e => rw [read] at h; cases h
  · next character => simp only [literal, character, h]
  · cases h

theorem deo_of_values {s : Session} {x y : Word} (device : s.current.value? = some x)
    (comma : s.advance.current.terminal = .punct .comma)
    (value : s.advance.advance.current.value? = some y) :
    s.deo = (some (.deo (.literal x) (.literal y)), s.advance.advance.advance) := by
  simp only [deo, expr, literal_of_value? device, Option.map_some, expect_of_check comma,
    literal_of_value? value]

theorem stmt_of_deo {s : Session} {x y : Word} (keyword : s.current.terminal = .keyword .deo)
    (device : s.advance.current.value? = some x)
    (comma : s.advance.advance.current.terminal = .punct .comma)
    (value : s.advance.advance.advance.current.value? = some y) :
    s.stmt = (some (.deo (.literal x) (.literal y)), s.advance.advance.advance.advance) := by
  rw [stmt_eq, if_pos (check_iff.mpr keyword), deo_of_values device comma value]

theorem block_of_stmts {s s' : Session} {body : List Stmt}
    (opening : s.current.terminal = .punct .braceOpen) (inside : s.advance.stmts = (body, s'))
    (closing : s'.current.terminal = .punct .braceClose) :
    s.block = (some ⟨s.current.line, body⟩, s'.advance) := by
  rw [block_eq, if_pos (check_iff.mpr opening), inside, expect_of_check closing]
  rfl

theorem stmt_of_block {s s' : Session} {b : Block}
    (opening : s.current.terminal = .punct .braceOpen) (block : s.block = (some b, s')) :
    s.stmt = (some (.block b.line b.body), s') := by
  have notDeo : ¬s.check (.keyword .deo) = true := by
    rw [check_iff, opening]
    decide
  rw [stmt_eq, if_neg notDeo, if_pos (check_iff.mpr opening), block]
  rfl

theorem atBodyEnd_of_closing {s : Session} (h : s.current.terminal = .punct .braceClose) :
    s.atBodyEnd = true :=
  atBodyEnd_iff.mpr (.inr h)

theorem atBodyEnd_eq_false {s : Session} {t : Terminal} (h : s.current.terminal = t)
    (ne : t ≠ .ending) (ne' : t ≠ .punct .braceClose) : s.atBodyEnd = false :=
  atBodyEnd_eq_false_iff.mpr (h ▸ ⟨ne, ne'⟩)

theorem stmts_of_stmt {s s' : Session} {stmt : Stmt} (go : s.atBodyEnd = false)
    (h : s.stmt = (some stmt, s')) : s.stmts = (stmt :: s'.stmts.1, s'.stmts.2) := by
  rw [stmts_eq, go, h]
  rfl

/-- **A session that reads over the tokens of a body builds its statements.** -/
theorem stmts_of_reads {ts : List Token} {body : List Stmt} (tree : BodyTree ts body)
    {s s' : Session} (reads : Reads s ts s') (stop : s'.atBodyEnd = true) :
    s.stmts = (body, s') := by
  induction tree generalizing s s' with
  | nil =>
    obtain ⟨rfl, -⟩ := Reads.nil_iff.mp reads
    rw [stmts_eq, if_pos stop]
  | deo keyword device comma value _ ih =>
    obtain ⟨rfl, -, -, reads⟩ := Reads.cons_iff.mp reads
    obtain ⟨rfl, -, -, reads⟩ := Reads.cons_iff.mp reads
    obtain ⟨rfl, -, -, reads⟩ := Reads.cons_iff.mp reads
    obtain ⟨rfl, -, -, reads⟩ := Reads.cons_iff.mp reads
    have stmt := stmt_of_deo keyword device comma value
    rw [stmts_of_stmt (atBodyEnd_eq_false keyword (by decide) (by decide)) stmt, ih reads stop]
  | block opening _ closing _ ihi ihr =>
    obtain ⟨rfl, -, -, reads⟩ := Reads.cons_iff.mp reads
    obtain ⟨s₁, inner, reads⟩ := reads.exists_of_append
    obtain ⟨rfl, -, -, reads⟩ := Reads.cons_iff.mp reads
    have inside := ihi inner (atBodyEnd_of_closing closing)
    have stmt := stmt_of_block opening (block_of_stmts opening inside closing)
    rw [stmts_of_stmt (atBodyEnd_eq_false opening (by decide) (by decide)) stmt, ihr reads stop]

theorem decl_of_check {s : Session} (h : s.current.terminal = .keyword .main) :
    s.decl = s.advance.block := by
  rw [decl, if_pos (check_iff.mpr h)]

theorem settle_of_calm {s : Session} (h : s.panic = false) : s.settle = s := by
  rw [settle, h]
  rfl

/-- A session that reads over a main block up to its closing brace builds the block. -/
theorem decl_of_reads {keyword opening : Token} {body : List Token} {stmts : List Stmt}
    (isMain : keyword.terminal = .keyword .main) (isOpening : opening.terminal = .punct .braceOpen)
    (tree : BodyTree body stmts) {s s' : Session} (reads : Reads s (keyword :: opening :: body) s')
    (closing : s'.current.terminal = .punct .braceClose) :
    s.atEnd = false ∧ s.decl = (some ⟨opening.line, stmts⟩, s'.advance) := by
  obtain ⟨rfl, -, -, reads⟩ := Reads.cons_iff.mp reads
  obtain ⟨rfl, -, -, reads⟩ := Reads.cons_iff.mp reads
  have inside := stmts_of_reads tree reads (atBodyEnd_of_closing closing)
  refine ⟨atEnd_of_check (check_iff.mpr isMain) (by decide), ?_⟩
  exact (decl_of_check isMain).trans (block_of_stmts isOpening inside closing)

/-- **A session that reads over the tokens of a program builds its main blocks.** -/
theorem decls_of_reads {ts : List Token} {mains : List Block} (tree : ProgramTree ts mains)
    {s s' : Session} (reads : Reads s ts s') (stop : s'.atEnd = true) :
    s.decls = (mains, s') := by
  induction tree generalizing s s' with
  | nil =>
    obtain ⟨rfl, -⟩ := Reads.nil_iff.mp reads
    rw [decls_eq, if_pos stop]
  | main keyword opening body closing _ ih =>
    obtain ⟨s₁, first, reads⟩ := reads.exists_of_append
    obtain ⟨rfl, -, -, reads⟩ := Reads.cons_iff.mp reads
    obtain ⟨notEnd, decl⟩ := decl_of_reads keyword opening body first closing
    rw [decls_eq, notEnd, decl]
    dsimp only
    rw [settle_of_calm reads.calm, ih reads stop]
    rfl

/-! ## Reading without errors builds a tree -/

theorem expect_of_calm {s : Session} {t : Terminal} (calm : (s.expect t).2.panic = false) :
    s.current.terminal = t ∧ s.expect t = (some s.current, s.advance) := by
  by_cases h : s.current.terminal = t
  · exact ⟨h, expect_of_check h⟩
  · rw [← check_iff] at h
    rw [expect, if_neg h] at calm
    exact absurd calm (by simp)

theorem literal_of_calm {s : Session} (calm : s.literal.2.panic = false) :
    ∃ w, s.current.value? = some w := by
  unfold literal at calm
  split at calm
  · next integer =>
    split at calm
    · next value read => exact ⟨value, by rw [Token.value?, integer]; simp [read, Except.toOption]⟩
    · exact absurd calm (by simp)
  · next character =>
    split at calm
    · next value read => exact ⟨value, by rw [Token.value?, character]; exact read⟩
    · exact absurd calm (by simp)
  · exact absurd calm (by simp)

theorem expr_of_calm {s : Session} (calm : s.expr.2.panic = false) :
    ∃ w, s.current.value? = some w ∧ s.expr = (some (.literal w), s.advance) := by
  obtain ⟨w, value⟩ := literal_of_calm calm
  refine ⟨w, value, ?_⟩
  rw [expr, literal_of_value? value]
  rfl

/-- Operands that are read without an error have values, and a comma stands between them. -/
theorem deo_of_calm {s : Session} (calm : s.deo.2.panic = false) : ∃ x y,
    s.current.value? = some x ∧ s.advance.current.terminal = .punct .comma ∧
      s.advance.advance.current.value? = some y ∧ s.deo.2 = s.advance.advance.advance := by
  unfold deo at calm ⊢
  split at calm
  · next s₁ first =>
    obtain ⟨x, -, device⟩ := expr_of_calm (s := s) (by rw [first]; exact calm)
    rw [device] at first
    cases first
  next s₁ first =>
  split at calm
  · next s₂ second =>
    obtain ⟨-, comma⟩ := expect_of_calm (s := s₁) (by rw [second]; exact calm)
    rw [comma] at second
    cases second
  next s₂ second =>
  split at calm
  · next s₃ third =>
    obtain ⟨y, -, value⟩ := expr_of_calm (s := s₂) (by rw [third]; exact calm)
    rw [value] at third
    cases third
  next s₃ third =>
  obtain ⟨y, value, eq₃⟩ := expr_of_calm (s := s₂) (by rw [third]; exact calm)
  cases third.symm.trans eq₃
  have calm₂ := (panic_advance_eq_false calm).1
  obtain ⟨comma, eq₂⟩ := expect_of_calm (s := s₁) (by rw [second]; exact calm₂)
  cases second.symm.trans eq₂
  have calm₁ := (panic_advance_eq_false calm₂).1
  obtain ⟨x, device, eq₁⟩ := expr_of_calm (s := s) (by rw [first]; exact calm₁)
  cases first.symm.trans eq₁
  exact ⟨x, y, device, comma, value, rfl⟩

/-- If nothing is held back behind a body, then its tokens have been read and it is their tree. -/
def BodyReads (s : Session) : Prop :=
  s.stmts.2.panic = false → ∃ ts, Reads s ts s.stmts.2 ∧ BodyTree ts s.stmts.1

theorem reads_of_block {s : Session}
    (inside : s.check (.punct .braceOpen) = true → s.advance.BodyReads)
    (calm : s.block.2.panic = false) :
    ∃ ts b, s.block.1 = some b ∧ BlockTree ts b ∧ Reads s ts s.block.2 := by
  cases h : s.check (.punct .braceOpen) with
  | false =>
    rw [block_eq, h] at calm
    exact absurd calm (by simp)
  | true =>
    have opening := check_iff.mp h
    have block : s.block.2 = (s.advance.stmts.2.expect (.punct .braceClose)).2 := by
      rw [block_eq, h]
      rfl
    rw [block] at calm
    obtain ⟨closing, expect⟩ := expect_of_calm calm
    rw [expect] at calm
    -- the advance over the closing brace is quiet, so the body was read without an error as well
    obtain ⟨ts, reads, tree⟩ := inside h (panic_advance_eq_false calm).1
    have last : Reads s.advance.stmts.2 [s.advance.stmts.2.current] s.advance.stmts.2.advance :=
      (Reads.nil calm).advance
    have built := block_of_stmts opening rfl closing
    rw [built]
    exact ⟨_, _, rfl, .braces opening tree closing, (reads.append last).advance⟩

theorem reads_of_stmt {s : Session}
    (inside : s.check (.punct .braceOpen) = true → s.advance.BodyReads)
    (calm : s.stmt.2.panic = false) :
    ∃ ts stmt, s.stmt.1 = some stmt ∧ Reads s ts s.stmt.2 ∧
      ∀ rest body, BodyTree rest body → BodyTree (ts ++ rest) (stmt :: body) := by
  by_cases keyword : s.current.terminal = .keyword .deo
  · have stmt : s.stmt = s.advance.deo := by rw [stmt_eq, if_pos (check_iff.mpr keyword)]
    rw [stmt] at calm
    obtain ⟨x, y, device, comma, value, last⟩ := deo_of_calm calm
    rw [last] at calm
    have built := stmt_of_deo keyword device comma value
    rw [built]
    refine ⟨_, _, rfl, (Reads.nil calm).advance.advance.advance.advance, fun rest body tree => ?_⟩
    exact .deo keyword device comma value tree
  by_cases brace : s.current.terminal = .punct .braceOpen
  · have stmt : s.stmt = (s.block.1.map fun b => .block b.line b.body, s.block.2) := by
      rw [stmt_eq, if_neg (mt check_iff.mp keyword), if_pos (check_iff.mpr brace)]
    rw [stmt] at calm
    obtain ⟨ts, b, built, tree, reads⟩ := reads_of_block inside calm
    refine ⟨ts, .block b.line b.body, ?_, ?_, fun rest body => tree.body⟩
    · rw [stmt, built]
      rfl
    · rw [stmt]
      exact reads
  · have stmt : s.stmt = (none, (s.errorExpected "statement").advance) := by
      rw [stmt_eq, if_neg (mt check_iff.mp keyword), if_neg (mt check_iff.mp brace)]
    rw [stmt] at calm
    have calm := (panic_advance_eq_false calm).1
    exact absurd calm (by simp)

/-- **A body behind which nothing is held back is the tree of its tokens.** -/
theorem bodyReads (s : Session) : s.BodyReads := by
  induction s using stmts_induction with
  | stop s h =>
    intro calm
    rw [stmts_eq, if_pos h] at calm ⊢
    exact ⟨[], .nil calm, .nil⟩
  | step s h ihBlock ih =>
    have stmts : s.stmts = (s.stmt.1.toList ++ s.stmt.2.stmts.1, s.stmt.2.stmts.2) := by
      rw [stmts_eq, h]
      rfl
    intro calm
    rw [stmts] at calm
    -- what follows comes first: it tells that nothing is held back behind the first statement
    obtain ⟨rest, later, tree⟩ := ih calm
    obtain ⟨ts, stmt, built, reads, cons⟩ := reads_of_stmt ihBlock later.calm
    rw [stmts, built]
    exact ⟨ts ++ rest, reads.append later, cons _ _ tree⟩

theorem reads_of_decl {s : Session} (calm : s.decl.2.panic = false) :
    ∃ keyword ts b, keyword.terminal = .keyword .main ∧ s.decl.1 = some b ∧ BlockTree ts b ∧
      Reads s (keyword :: ts) s.decl.2 := by
  by_cases keyword : s.current.terminal = .keyword .main
  · have decl := decl_of_check keyword
    rw [decl] at calm ⊢
    obtain ⟨ts, b, built, tree, reads⟩ := reads_of_block (fun _ => bodyReads _) calm
    exact ⟨_, ts, b, keyword, built, tree, reads.advance⟩
  · rw [decl, if_neg (mt check_iff.mp keyword)] at calm
    have calm := (panic_advance_eq_false calm).1
    exact absurd calm (by simp)

theorem atEnd_decls (s : Session) : s.decls.2.atEnd = true := by
  induction s using decls_induction with
  | stop s h => rwa [decls_eq, if_pos h]
  | step s h ih => rwa [decls_eq, h]

/-- **Declarations without diagnostics are the tree of their tokens.** -/
theorem reads_of_decls (s : Session) (sound : s.Sound) (clean : s.decls.2.diagnostics = []) :
    ∃ ts, Reads s ts s.decls.2 ∧ ProgramTree ts s.decls.1 := by
  induction s using decls_induction with
  | stop s h =>
    rw [decls_eq, if_pos h] at clean ⊢
    exact ⟨[], .nil (sound.panic_eq_false clean), .nil⟩
  | step s h ih =>
    have decls : s.decls =
        (s.decl.1.toList ++ s.decl.2.settle.decls.1, s.decl.2.settle.decls.2) := by
      rw [decls_eq, h]
      rfl
    rw [decls] at clean
    -- diagnostics are never taken back, so there are none behind the first declaration either
    have moves : Moves s.decl.2 s.decl.2.settle.decls.2 :=
      s.decl.2.moves_settle.trans (moves_decls _)
    have first : s.decl.2.diagnostics = [] := by
      have before := moves.prefix_diagnostics
      rw [clean] at before
      exact List.prefix_nil.mp before
    have sound := sound.of_moves s.moves_decl
    have calm := sound.panic_eq_false first
    rw [settle_of_calm calm] at decls ih clean
    obtain ⟨rest, later, tree⟩ := ih sound clean
    obtain ⟨keyword, ts, b, isMain, built, block, reads⟩ := reads_of_decl calm
    rw [decls, built]
    exact ⟨_, reads.append later, block.main isMain tree⟩

end Session

end DeoLang
