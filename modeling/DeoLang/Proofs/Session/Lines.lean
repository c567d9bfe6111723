import DeoLang.Proofs.Program.Outputs
import DeoLang.Proofs.Session.Parse
import DeoLang.Proofs.Token.Written

/-!
# Parsing apart from lines

* `Lexed.plain`, `Session.plain`: results and sessions apart from their lines.
* `plain_advance`, `plain_recover`: what a session does goes along with leaving out the lines.
* `plain_deo`, `bodyPlain`, `plain_decls` and the lemmas around them: so does each node, and it
  builds the same apart from the lines of its blocks.
* `plain_ofSource`: the session of a source depends on its results only.
* **`parse_plain`**: sources with the same results apart from their lines have the same program, or
  the same report, apart from lines.
-/

namespace DeoLang

/-- The error apart from its line. -/
def LexError.plain (e : LexError) : LexError :=
  { e with line := 0 }

/-- The result apart from its line. -/
def Lexed.plain : Lexed → Lexed
  | .ok t => .ok t.plain
  | .error e => .error e.plain

/-- The item apart from its lines. -/
def Item.plain (i : Item) : Item :=
  ⟨i.errors.map LexError.plain, i.token.plain⟩

/-- The diagnostic apart from its line. -/
def Diagnostic.plain (d : Diagnostic) : Diagnostic :=
  { d with line := 0 }

/-- The event apart from its line. -/
def Event.plain : Event → Event
  | lexed t => lexed t.plain
  | found e => found e.plain
  | recorded d => recorded d.plain
  | suppressed d => suppressed d.plain
  | recovered => recovered

/-- The window apart from its lines. -/
def Window.plain (w : Window) : Window :=
  ⟨w.current.plain, w.ahead.plain, w.queue.map Item.plain⟩

theorem group_map_plain (rs : List Lexed) :
    Item.group (rs.map Lexed.plain) = (Item.group rs).map Item.plain :=
  Item.group_map (fun _ => rfl) (fun _ => rfl) (fun _ => rfl) rs

theorem Window.plain_slide (w : Window) : w.plain.slide = w.slide.plain := by
  obtain ⟨current, ahead, queue⟩ := w
  cases queue <;> rfl

namespace Session

/-- The session apart from its lines. -/
def plain (s : Session) : Session :=
  ⟨s.window.plain, s.panic, s.history.map Event.plain⟩

variable (s : Session)

@[simp] theorem current_plain : s.plain.current = s.current.plain := rfl

@[simp] theorem check_plain (t : Terminal) : s.plain.check t = s.check t := rfl

@[simp] theorem atEnd_plain : s.plain.atEnd = s.atEnd := rfl

@[simp] theorem atBodyEnd_plain : s.plain.atBodyEnd = s.atBodyEnd := rfl

@[simp] theorem panic_plain : s.plain.panic = s.panic := rfl

theorem diagnostics_plain : s.plain.diagnostics = s.diagnostics.map Diagnostic.plain := by
  have each : ∀ e : Event, e.plain.diagnostic? = e.diagnostic?.map Diagnostic.plain := by
    intro e
    cases e <;> rfl
  rw [diagnostics, diagnostics, plain, ← List.map_reverse, List.filterMap_map,
    List.map_filterMap]
  exact congrFun (congrArg _ (funext each)) _

/-! ## What a session does -/

theorem plain_report (d : Diagnostic) : (s.report d).plain = s.plain.report d.plain := by
  unfold report
  rw [panic_plain]
  split <;> rfl

theorem plain_error (line : Nat) (message : String) :
    (s.error line message).plain = s.plain.error 0 message :=
  s.plain_report ⟨.error, line, message⟩

theorem plain_errorExpected (expected : String) :
    (s.errorExpected expected).plain = s.plain.errorExpected expected :=
  s.plain_error _ _

theorem plain_find (e : LexError) : (s.find e).plain = s.plain.find e.plain :=
  plain_report _ e.diagnostic

theorem plain_foldl_find (es : List LexError) :
    (es.foldl find s).plain = (es.map LexError.plain).foldl find s.plain := by
  induction es generalizing s with
  | nil => rfl
  | cons e es ih => rw [List.foldl_cons, ih, plain_find, List.map_cons, List.foldl_cons]

theorem plain_advance : s.advance.plain = s.plain.advance := by
  have found := s.plain_foldl_find s.window.errors
  have errors : s.plain.window.errors = s.window.errors.map LexError.plain := rfl
  have slide : s.plain.window.slide = s.window.slide.plain := s.window.plain_slide
  rw [advance, advance, errors, ← found, slide]
  rfl

theorem plain_recover : s.recover.plain = s.plain.recover := by
  fun_induction recover s with
  | case1 s stop =>
    rw [recover, dif_pos (by exact stop)]
    rfl
  | case2 s go ih =>
    rw [ih, plain_advance, recover.eq_1 s.plain, dif_neg (by exact go)]

theorem plain_settle : s.settle.plain = s.plain.settle := by
  unfold settle
  rw [panic_plain, ← plain_recover]
  split <;> rfl

/-! ## Nodes -/

theorem plain_expect (t : Terminal) :
    s.plain.expect t = ((s.expect t).1.map Token.plain, (s.expect t).2.plain) := by
  unfold expect
  rw [check_plain, ← plain_advance, ← plain_errorExpected]
  split <;> rfl

theorem plain_literal : s.plain.literal = (s.literal.1, s.literal.2.plain) := by
  have terminal : s.plain.current.terminal = s.current.terminal := rfl
  have lexeme : s.plain.current.lexeme = s.current.lexeme := rfl
  have line : s.plain.current.line = 0 := rfl
  unfold literal
  simp only [terminal, lexeme, line, ← plain_advance, ← plain_errorExpected]
  split
  · split
    · rfl
    · rw [plain_error]
  · split
    · rfl
    · rw [plain_error]
  · rfl

theorem plain_expr : s.plain.expr = (s.expr.1, s.expr.2.plain) := by
  rw [expr, plain_literal]
  rfl

theorem plain_deo : s.plain.deo.1.toList = relineBody 0 s.deo.1.toList ∧
    s.plain.deo.2 = s.deo.2.plain := by
  unfold deo
  rw [plain_expr]
  rcases s.expr with ⟨_ | device, s₁⟩
  · simp
  dsimp only
  rw [plain_expect]
  rcases s₁.expect (.punct .comma) with ⟨_ | comma, s₂⟩
  · simp
  dsimp only [Option.map_some]
  rw [plain_expr]
  rcases s₂.expr with ⟨_ | value, s₃⟩ <;> simp

/-- The body of a session is that of the session apart from its lines. -/
def BodyPlain : Prop :=
  s.plain.stmts = (relineBody 0 s.stmts.1, s.stmts.2.plain)

variable {s}

theorem plain_block_of_body (inside : s.check (.punct .braceOpen) = true → s.advance.BodyPlain) :
    s.plain.block = (s.block.1.map (Block.reline 0), s.block.2.plain) := by
  rw [block_eq, block_eq, check_plain]
  split
  · next opening =>
    have body := inside opening
    rw [BodyPlain, plain_advance] at body
    rw [body]
    dsimp only
    rw [plain_expect]
    cases (s.advance.stmts.2.expect (.punct .braceClose)).1 <;> rfl
  · rw [plain_errorExpected]
    rfl

theorem plain_stmt_of_body (inside : s.check (.punct .braceOpen) = true → s.advance.BodyPlain) :
    s.plain.stmt.1.toList = relineBody 0 s.stmt.1.toList ∧ s.plain.stmt.2 = s.stmt.2.plain := by
  rw [stmt_eq, stmt_eq, check_plain, check_plain]
  split
  · rw [← plain_advance]
    exact s.advance.plain_deo
  split
  · rw [plain_block_of_body inside]
    cases s.block.1 <;> simp [Block.reline]
  · rw [plain_advance, plain_errorExpected]
    simp

variable (s)

theorem bodyPlain : s.BodyPlain := by
  induction s using stmts_induction with
  | stop s h =>
    rw [BodyPlain, stmts_eq, atBodyEnd_plain, stmts_eq s, if_pos h, if_pos h]
    simp
  | step s h ihBlock ih =>
    obtain ⟨first, behind⟩ := plain_stmt_of_body ihBlock
    rw [BodyPlain, stmts_eq, atBodyEnd_plain, stmts_eq s, h]
    simp only [Bool.false_eq_true, if_false]
    rw [first, behind, ih, relineBody_append]

theorem plain_block : s.plain.block = (s.block.1.map (Block.reline 0), s.block.2.plain) :=
  plain_block_of_body fun _ => bodyPlain _

theorem plain_decl : s.plain.decl = (s.decl.1.map (Block.reline 0), s.decl.2.plain) := by
  unfold decl
  rw [check_plain]
  split
  · rw [← plain_advance, plain_block]
  · rw [plain_advance, plain_errorExpected]
    rfl

theorem plain_decls : s.plain.decls = (s.decls.1.map (Block.reline 0), s.decls.2.plain) := by
  induction s using decls_induction with
  | stop s h =>
    rw [decls_eq, atEnd_plain, decls_eq s, if_pos h, if_pos h]
    rfl
  | step s h ih =>
    rw [decls_eq, atEnd_plain, decls_eq s, h]
    simp only [Bool.false_eq_true, if_false]
    rw [plain_decl, ← plain_settle, ih]
    cases s.decl.1 <;> simp

/-! ## Sources -/

/-- The session of a source, apart from lines, depends on the results of the source only. -/
theorem plain_ofSource {a b : String} (same : (Cursor.ofSource a).results.map Lexed.plain =
    (Cursor.ofSource b).results.map Lexed.plain) : (ofSource a).plain = (ofSource b).plain := by
  have items := congrArg Item.group same
  rw [group_map_plain, group_map_plain] at items
  simp only [plain, ofSource, Window.plain, Window.ofSource, items]

end Session

/-- **Sources with the same results apart from their lines** have programs that are the same apart
from lines, or reports that are. -/
theorem parse_plain {a b : String} (same : (Cursor.ofSource a).results.map Lexed.plain =
    (Cursor.ofSource b).results.map Lexed.plain) :
    (∃ p q, parse a = .ok p ∧ parse b = .ok q ∧
      p.mains.map (Block.reline 0) = q.mains.map (Block.reline 0)) ∨
    ∃ r r', parse a = .error r ∧ parse b = .error r' ∧
      r.map Diagnostic.plain = r'.map Diagnostic.plain := by
  have start : ((Session.ofSource a).advance.advance).plain =
      ((Session.ofSource b).advance.advance).plain := by
    rw [Session.plain_advance, Session.plain_advance, Session.plain_ofSource same,
      ← Session.plain_advance, ← Session.plain_advance]
  have decls := congrArg Session.decls start
  rw [Session.plain_decls, Session.plain_decls] at decls
  obtain ⟨mains, behind⟩ := Prod.mk.inj decls
  have diagnostics := congrArg Session.diagnostics behind
  rw [Session.diagnostics_plain, Session.diagnostics_plain, ← diagnostics_finish,
    ← diagnostics_finish] at diagnostics
  have cleanIff : (Session.ofSource a).finish.2.diagnostics = [] ↔
      (Session.ofSource b).finish.2.diagnostics = [] := by
    rw [← List.map_eq_nil_iff, diagnostics, List.map_eq_nil_iff]
  rw [parse_eq, parse_eq]
  by_cases clean : (Session.ofSource a).finish.2.diagnostics = []
  · rw [if_pos clean, if_pos (cleanIff.mp clean)]
    exact .inl ⟨_, _, rfl, rfl, mains⟩
  · rw [if_neg clean, if_neg (mt cleanIff.mpr clean)]
    exact .inr ⟨_, _, rfl, rfl, diagnostics⟩

end DeoLang
