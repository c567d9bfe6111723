import Mathlib
import DeoLang.Proofs.Grammar.Place

/-!
# The first error

* `Complaint`: what is said of a token that is not what was expected.
* `Session.Clear`: errors are not held back, and there are none in the text to come.
* `Session.Stuck`: a session goes over tokens that lead to a place and complains about the next one,
  before anything else.
* **`stuck_of_stmts`**, **`stuck_of_decls`**: a clear session that reports an error was stuck.
* **`first_error`**: the first error of a source is at the first token that is not viable.
-/

namespace DeoLang

/-- What is said of a token where something else is expected: it has another terminal, or it is a
literal without a value. -/
inductive Complaint (x : Expectation) (t : Token) : String → Prop where
  | unexpected : t.terminal ∉ x.terminals →
      Complaint x t ("expected " ++ x.describe t.terminal ++ ", but got " ++ t.terminal.describe)
  | numeral {e : NumeralError} : x = .expression → t.terminal = .integer →
      readInt t.lexeme = .error e → Complaint x t e.message
  | character : x = .expression → t.terminal = .character → charValue t.lexeme = none →
      Complaint x t ("malformed character literal " ++ t.lexeme)

theorem Complaint.next?_ne_some {x : Expectation} {t : Token} {message : String}
    (h : Complaint x t message) {p : Place} (wants : p.wants = some x) (q : Place) :
    p.next? t ≠ some q := by
  intro next
  obtain ⟨right, value⟩ := (Place.exists_next?_iff wants t).mp ⟨q, next⟩
  cases h with
  | unexpected wrong => exact wrong right
  | numeral expression integer error =>
    obtain ⟨w, value⟩ := value expression
    rw [Token.value?, integer] at value
    simp [error, Except.toOption] at value
  | character expression character noValue =>
    obtain ⟨w, value⟩ := value expression
    rw [Token.value?, character] at value
    simp [noValue] at value

/-- There are no errors in what the window has in front of it. -/
def Window.Clean (w : Window) : Prop :=
  ∀ i ∈ w.items, i.errors = []

theorem Window.Clean.slide {w : Window} (h : w.Clean) : w.slide.Clean := by
  intro i hi
  cases items : w.items with
  | nil => cases items
  | cons j rest =>
    cases rest with
    | nil =>
      rw [Window.slide_of_items_singleton items] at hi
      rw [List.mem_singleton.mp hi]
    | cons k rest =>
      rw [Window.slide_of_items items] at hi
      refine h i ?_
      rw [items]
      exact List.mem_cons_of_mem _ hi

theorem Window.Clean.errors {w : Window} (h : w.Clean) : w.errors = [] :=
  h w.ahead List.mem_cons_self

namespace Session

/-- Errors are not held back, and there are none in the text to come. -/
structure Clear (s : Session) : Prop where
  calm : s.panic = false
  clean : s.window.Clean

theorem Clear.of_moves {s s' : Session} (h : s.Clear) (moves : Moves s s')
    (calm : s'.panic = false) : s'.Clear :=
  ⟨calm, Moves.window_slide (P := Window.Clean) (fun _ h => h.slide) moves h.clean⟩

theorem Clear.advance {s : Session} (h : s.Clear) : s.advance.Clear := by
  refine h.of_moves s.moves_advance ?_
  rw [panic_advance, h.calm, h.clean.errors]
  rfl

theorem Clear.diagnostics_advance {s : Session} (h : s.Clear) :
    s.advance.diagnostics = s.diagnostics := by
  rw [Session.diagnostics_advance, h.calm, h.clean.errors]
  exact List.append_nil _

theorem Clear.reads {s : Session} (h : s.Clear) : Reads s [s.current] s.advance :=
  .cons h.calm h.clean.errors (.nil h.advance.calm)

/-- From the place `p` on, the session goes over tokens that lead somewhere. The next one leads
nowhere, and to complain about it is the first thing that is added to the diagnostics. -/
inductive Stuck (p : Place) (s e : Session) : Prop where
  | intro {before : List Token} {s₁ : Session} {q : Place} {x : Expectation} {message : String} :
      Reads s before s₁ → p.read before = some q → q.wants = some x →
      Complaint x s₁.current message →
      s.diagnostics ++ [⟨.error, s₁.current.line, message⟩] <+: e.diagnostics → Stuck p s e

section

variable {p q : Place} {s s' e e' : Session} {x : Expectation}

theorem Stuck.of_moves (h : Stuck p s e) (moves : Moves e e') : Stuck p s e' := by
  obtain ⟨reads, read, wants, complaint, first⟩ := h
  exact ⟨reads, read, wants, complaint, first.trans moves.prefix_diagnostics⟩

theorem Stuck.of_reads {ts : List Token} (reads : Reads s ts s') (read : p.read ts = some q)
    (h : Stuck q s' e) : Stuck p s e := by
  obtain ⟨later, read', wants, complaint, first⟩ := h
  rw [reads.diagnostics_eq] at first
  refine ⟨reads.append later, ?_, wants, complaint, first⟩
  rw [Place.read_append, read]
  exact read'

theorem Stuck.of_next? (clear : s.Clear) (next : p.next? s.current = some q)
    (h : Stuck q s.advance e) : Stuck p s e :=
  .of_reads clear.reads (by rw [Place.read_cons, next]; rfl) h

theorem stuck_here (calm : s.panic = false) (wants : p.wants = some x) {message : String}
    (complaint : Complaint x s.current message)
    (first : e.diagnostics = s.diagnostics ++ [⟨.error, s.current.line, message⟩]) :
    Stuck p s e :=
  ⟨.nil calm, rfl, wants, complaint, first ▸ List.prefix_rfl⟩

theorem stuck_errorExpected (calm : s.panic = false) (wants : p.wants = some x)
    (wrong : s.current.terminal ∉ x.terminals) :
    Stuck p s (s.errorExpected (x.describe s.current.terminal)) := by
  refine stuck_here calm wants (.unexpected wrong) ?_
  rw [errorExpected, errorHere, error, diagnostics_report, calm]
  rfl

/-! ## Nodes -/

theorem stuck_of_literal (clear : s.Clear) (wants : p.wants = some .expression)
    (noValue : s.current.value? = none) : ∃ e, s.literal = (none, e) ∧ Stuck p s e := by
  have late (message : String) : (s.advance.error s.current.line message).diagnostics =
      s.diagnostics ++ [⟨.error, s.current.line, message⟩] := by
    rw [error, diagnostics_report, clear.advance.calm, clear.diagnostics_advance]
    rfl
  rw [Token.value?] at noValue
  unfold literal
  split
  · next integer =>
    cases read : readInt s.current.lexeme with
    | ok value => simp [integer, read, Except.toOption] at noValue
    | error e => exact ⟨_, rfl, stuck_here clear.calm wants (.numeral rfl integer read) (late _)⟩
  · next character =>
    simp only [character] at noValue
    simp only [noValue]
    exact ⟨_, rfl, stuck_here clear.calm wants (.character rfl character noValue) (late _)⟩
  · next noInteger noCharacter =>
    have wrong : s.current.terminal ∉ Expectation.expression.terminals := by
      simpa [Expectation.terminals] using And.intro noInteger noCharacter
    have stuck := stuck_errorExpected clear.calm wants wrong
    exact ⟨_, rfl, stuck⟩

theorem expr_cases (clear : s.Clear) (wants : p.wants = some .expression) :
    (∃ w, s.current.value? = some w ∧ s.expr = (some (.literal w), s.advance)) ∨
      ∃ e, s.expr = (none, e) ∧ Stuck p s e := by
  cases value : s.current.value? with
  | some w => exact .inl ⟨w, rfl, by rw [expr, literal_of_value? value, Option.map_some]⟩
  | none =>
    obtain ⟨e, literal, stuck⟩ := stuck_of_literal clear wants value
    exact .inr ⟨e, by rw [expr, literal, Option.map_none], stuck⟩

theorem expect_cases (clear : s.Clear) (t : Terminal) (wants : p.wants = some x)
    (only : x.terminals = [t]) (name : x.describe s.current.terminal = t.describe) :
    s.current.terminal = t ∧ s.expect t = (some s.current, s.advance) ∨
      ∃ e, s.expect t = (none, e) ∧ Stuck p s e := by
  by_cases right : s.current.terminal = t
  · exact .inl ⟨right, expect_of_check right⟩
  · have wrong : s.current.terminal ∉ x.terminals := by simpa [only] using right
    have stuck := stuck_errorExpected clear.calm wants wrong
    rw [name] at stuck
    rw [expect, if_neg (mt check_iff.mp right)]
    exact .inr ⟨_, rfl, stuck⟩

theorem stuck_of_deo (clear : s.Clear) (panic : s.deo.2.panic = true) (depth : Nat) :
    Stuck (.device depth) s s.deo.2 := by
  rcases expr_cases clear (p := .device depth) rfl with ⟨x, first, device⟩ | ⟨e, device, stuck⟩
  case inr => simpa only [deo, device] using stuck
  refine .of_next? (q := .comma depth) clear (by simp [Place.next?, first]) ?_
  rcases expect_cases clear.advance (.punct .comma) (p := .comma depth) rfl rfl rfl with
    ⟨second, comma⟩ | ⟨e, comma, stuck⟩
  case inr => simpa only [deo, device, comma] using stuck
  refine .of_next? (q := .value depth) clear.advance (by simp [Place.next?, second]) ?_
  rcases expr_cases clear.advance.advance (p := .value depth) rfl with
    ⟨y, -, value⟩ | ⟨e, value, stuck⟩
  case inr => simpa only [deo, device, comma, value] using stuck
  simp only [deo, device, comma, value, clear.advance.advance.advance.calm] at panic
  cases panic

end

theorem atBodyEnd_stmts (s : Session) : s.stmts.2.atBodyEnd = true := by
  induction s using stmts_induction with
  | stop s h => rwa [stmts_eq, if_pos h]
  | step s h ihBlock ih => rwa [stmts_eq, h]

/-- If errors are held back behind a body, then it is where the session is stuck. -/
def BodyStuck (s : Session) : Prop :=
  s.Clear → s.stmts.2.panic = true → ∀ depth, Stuck (.body depth) s s.stmts.2

section

variable {s : Session}

/-- Behind the statements of a block there is its closing brace or the end of the source. -/
theorem stuck_of_block (clear : s.Clear) (opening : s.current.terminal = .punct .braceOpen)
    (inside : s.advance.BodyStuck) (panic : s.block.2.panic = true) {p : Place} {depth : Nat}
    (next : p.next? s.current = some (.body depth)) : Stuck p s s.block.2 := by
  refine .of_next? clear next ?_
  have block : s.block.2 = (s.advance.stmts.2.expect (.punct .braceClose)).2 := by
    rw [block_eq, if_pos (check_iff.mpr opening)]
  rw [block] at panic ⊢
  cases held : s.advance.stmts.2.panic with
  | true =>
    have stuck := inside clear.advance held depth
    exact stuck.of_moves (works_expect _ _).moves
  | false =>
    obtain ⟨ts, reads, tree⟩ := bodyReads s.advance held
    refine .of_reads reads (tree.read depth) ?_
    have clear' := clear.advance.of_moves s.advance.works_stmts.moves held
    by_cases closing : s.advance.stmts.2.current.terminal = .punct .braceClose
    · rw [expect_of_check closing, clear'.advance.calm] at panic
      cases panic
    · -- the body has stopped, so the end of the source is current
      have ending : s.advance.stmts.2.current.terminal = .ending :=
        (atBodyEnd_iff.mp s.advance.atBodyEnd_stmts).resolve_right closing
      have wrong : s.advance.stmts.2.current.terminal ∉ Expectation.statement.terminals := by
        simp [ending, Expectation.terminals]
      have stuck := stuck_errorExpected clear'.calm (p := .body depth) rfl wrong
      rw [ending] at stuck
      rw [expect, if_neg (mt check_iff.mp closing)]
      exact stuck

theorem stuck_of_stmt (clear : s.Clear) (go : s.atBodyEnd = false)
    (inside : s.check (.punct .braceOpen) = true → s.advance.BodyStuck)
    (panic : s.stmt.2.panic = true) (depth : Nat) : Stuck (.body depth) s s.stmt.2 := by
  by_cases keyword : s.current.terminal = .keyword .deo
  · have stmt : s.stmt = s.advance.deo := by rw [stmt_eq, if_pos (check_iff.mpr keyword)]
    rw [stmt] at panic ⊢
    refine .of_next? (q := .device depth) clear (by simp [Place.next?, keyword]) ?_
    exact stuck_of_deo clear.advance panic depth
  by_cases brace : s.current.terminal = .punct .braceOpen
  · have stmt : s.stmt.2 = s.block.2 := by
      rw [stmt_eq, if_neg (mt check_iff.mp keyword), if_pos (check_iff.mpr brace)]
    rw [stmt] at panic ⊢
    have next : (Place.body depth).next? s.current = some (.body (depth + 1)) := by
      simp [Place.next?, brace]
    exact stuck_of_block clear brace (inside (check_iff.mpr brace)) panic next
  · have stmt : s.stmt.2 = (s.errorExpected "statement").advance := by
      rw [stmt_eq, if_neg (mt check_iff.mp keyword), if_neg (mt check_iff.mp brace)]
    obtain ⟨notEnd, noClosing⟩ := atBodyEnd_eq_false_iff.mp go
    have wrong : s.current.terminal ∉ Expectation.statement.terminals := by
      simp [Expectation.terminals, keyword, brace, noClosing]
    have stuck := stuck_errorExpected clear.calm (p := .body depth) rfl wrong
    rw [Expectation.describe, if_neg notEnd] at stuck
    rw [stmt]
    exact stuck.of_moves (moves_advance _)

/-- **A body behind which errors are held back is where the session is stuck.** -/
theorem stuck_of_stmts (s : Session) : s.BodyStuck := by
  induction s using stmts_induction with
  | stop s h =>
    intro clear panic
    rw [stmts_eq, if_pos h, clear.calm] at panic
    cases panic
  | step s h ihBlock ih =>
    intro clear panic depth
    have stmts : s.stmts.2 = s.stmt.2.stmts.2 := by rw [stmts_eq, h]; rfl
    rw [stmts] at panic ⊢
    cases held : s.stmt.2.panic with
    | true =>
      have stuck := stuck_of_stmt clear h ihBlock held depth
      exact stuck.of_moves s.stmt.2.works_stmts.moves
    | false =>
      obtain ⟨ts, stmt, -, reads, tree⟩ := reads_of_stmt (fun _ => bodyReads _) held
      have read := (tree [] [] .nil).read depth
      rw [List.append_nil] at read
      exact .of_reads reads read (ih (clear.of_moves s.works_stmt.moves held) panic depth)

theorem stuck_of_decl (clear : s.Clear) (notEnd : s.atEnd = false)
    (panic : s.decl.2.panic = true) : Stuck .top s s.decl.2 := by
  by_cases keyword : s.current.terminal = .keyword .main
  · rw [decl_of_check keyword] at panic ⊢
    refine .of_next? (q := .header) clear (by simp [Place.next?, keyword]) ?_
    by_cases opening : s.advance.current.terminal = .punct .braceOpen
    · have next : Place.header.next? s.advance.current = some (.body 0) := by
        simp [Place.next?, opening]
      exact stuck_of_block clear.advance opening (stuck_of_stmts _) panic next
    · have wrong : s.advance.current.terminal ∉ Expectation.opening.terminals := by
        simpa [Expectation.terminals] using opening
      have stuck := stuck_errorExpected clear.advance.calm (p := .header) rfl wrong
      rw [block_eq, if_neg (mt check_iff.mp opening)]
      exact stuck
  · have decl : s.decl.2 = (s.errorExpected "declaration").advance := by
      rw [decl, if_neg (mt check_iff.mp keyword)]
    have wrong : s.current.terminal ∉ Expectation.declaration.terminals := by
      simpa [Expectation.terminals] using And.intro keyword (atEnd_eq_false_iff.mp notEnd)
    have stuck := stuck_errorExpected clear.calm (p := .top) rfl wrong
    rw [decl]
    exact stuck.of_moves (moves_advance _)

/-- **Declarations with new diagnostics are where the session is stuck.** -/
theorem stuck_of_decls (s : Session) (clear : s.Clear)
    (new : s.decls.2.diagnostics ≠ s.diagnostics) : Stuck .top s s.decls.2 := by
  induction s using decls_induction with
  | stop s h =>
    rw [decls_eq, if_pos h] at new
    exact absurd rfl new
  | step s h ih =>
    have decls : s.decls.2 = s.decl.2.settle.decls.2 := by rw [decls_eq, h]; rfl
    rw [decls] at new ⊢
    cases held : s.decl.2.panic with
    | true =>
      have stuck := stuck_of_decl clear h held
      exact stuck.of_moves (s.decl.2.moves_settle.trans (moves_decls _))
    | false =>
      rw [settle_of_calm held] at ih new ⊢
      obtain ⟨keyword, ts, b, isMain, -, block, reads⟩ := reads_of_decl held
      have read := (block.main isMain .nil).read
      rw [List.append_nil] at read
      rw [← reads.diagnostics_eq] at new
      exact .of_reads reads read (ih (clear.of_moves s.moves_decl held) new)

end

theorem clear_ofSource {source : String} {all : List Token}
    (clean : (Cursor.ofSource source).results = all.map .ok) : (ofSource source).Clear := by
  refine ⟨rfl, fun i hi => ?_⟩
  rw [ofSource, Window.items, Window.ofSource, clean, group_map_ok] at hi
  rcases List.mem_cons.mp hi with rfl | hi
  · rfl
  · obtain ⟨t, -, rfl⟩ := List.mem_map.mp hi
    rfl

theorem stuck_of_parse {source : String} {all : List Token} {report : Report}
    (clean : (Cursor.ofSource source).results = all.map .ok)
    (failed : parse source = .error report) :
    Stuck .top (ofSource source).advance.advance (ofSource source).advance.advance.decls.2 ∧
      (ofSource source).advance.advance.diagnostics = [] ∧
      (ofSource source).advance.advance.decls.2.diagnostics = report := by
  have clear := clear_ofSource clean
  have start : (ofSource source).advance.advance.diagnostics = [] := by
    rw [clear.advance.diagnostics_advance, clear.diagnostics_advance]
    rfl
  obtain ⟨diagnostics, reported⟩ := diagnostics_of_parse failed
  rw [diagnostics_finish] at diagnostics
  have new : (ofSource source).advance.advance.decls.2.diagnostics ≠
      (ofSource source).advance.advance.diagnostics := by
    rwa [start, diagnostics]
  exact ⟨stuck_of_decls _ clear.advance.advance new, start, diagnostics⟩

end Session

/-! ## The first token that is not viable -/

/-- Only behind the end of a program the end of the source has been read. -/
theorem Place.ne_ending_of_read {p q : Place} {x : Expectation} {ts : List Token}
    (read : p.read ts = some q) (wants : q.wants = some x) : ∀ t ∈ ts, t.terminal ≠ .ending := by
  induction ts generalizing p with
  | nil => simp
  | cons t ts ih =>
    rw [read_cons] at read
    obtain ⟨r, next, rest⟩ := Option.bind_eq_some_iff.mp read
    refine List.forall_mem_cons.mpr ⟨fun ending => ?_, ih rest⟩
    have last : r = .finished := by
      have noValue : t.value? = none := by simp [Token.value?, ending]
      cases p <;> simp [next?, ending, noValue] at next
      exact next.symm
    subst last
    cases ts with
    | nil => cases rest; cases wants
    | cons u us => cases rest

theorem exists_eq_of_passes {front : List Token} {last : Token} (ending : last.terminal = .ending)
    {before : List Token} {w : Window}
    (passes : Passes (Window.ofItems ((front ++ [last]).map Item.quiet)) before w)
    (others : ∀ t ∈ before, t.terminal ≠ .ending) :
    ∃ after, front ++ [last] = before ++ w.current :: after := by
  induction before generalizing front with
  | nil =>
    cases passes
    obtain ⟨u, rest, shape⟩ := exists_append_singleton_eq_cons front last
    exact ⟨rest, by rw [shape, List.map_cons, Window.current_ofItems]; rfl⟩
  | cons t before ih =>
    obtain ⟨rfl, -, passes⟩ := Passes.cons_iff.mp passes
    obtain ⟨first, later⟩ := List.forall_mem_cons.mp others
    cases front with
    | nil => exact absurd ending first
    | cons u front =>
      obtain ⟨v, rest, shape⟩ := exists_append_singleton_eq_cons front last
      rw [List.cons_append, List.map_cons, shape, List.map_cons, Window.slide_ofItems,
        ← List.map_cons, ← shape] at passes
      obtain ⟨after, all⟩ := ih passes later
      refine ⟨after, ?_⟩
      rw [List.cons_append, List.map_cons, Window.current_ofItems, all]
      rfl

/-- Where the first token that is not viable stands is determined. -/
theorem eq_of_not_viable {before before' after after' : List Token} {t t' : Token}
    (same : before ++ t :: after = before' ++ t' :: after') (viable : Viable before)
    (not_viable : ¬Viable (before ++ [t])) (viable' : Viable before')
    (not_viable' : ¬Viable (before' ++ [t'])) : before = before' ∧ t = t' := by
  rcases List.append_eq_append_iff.mp same with ⟨more, rfl, rest⟩ | ⟨more, rfl, rest⟩
  · cases more with
    | nil => exact ⟨(List.append_nil _).symm, (List.cons.inj rest).1⟩
    | cons u more =>
      obtain ⟨rfl, -⟩ := List.cons.inj rest
      exact absurd (viable'.of_prefix (by simp)) not_viable
  · cases more with
    | nil => exact ⟨List.append_nil _, (List.cons.inj rest).1.symm⟩
    | cons u more =>
      obtain ⟨rfl, -⟩ := List.cons.inj rest
      exact absurd (viable.of_prefix (by simp)) not_viable'

/-- The diagnostic `d` is what is said of the token `t` where `x` is viable behind the tokens
`before`. -/
structure FirstError (before : List Token) (t : Token) (x : Expectation) (d : Diagnostic) :
    Prop where
  severity : d.severity = .error
  line : d.line = t.line
  viable : ∀ k, (∃ u : Token, u.terminal = k ∧ Viable (before ++ [u])) ↔ k ∈ x.terminals
  message :
    t.terminal ∉ x.terminals ∧
      d.message = "expected " ++ x.describe t.terminal ++ ", but got " ++ t.terminal.describe ∨
    x = .expression ∧ t.terminal = .integer ∧
      ∃ e, readInt t.lexeme = .error e ∧ d.message = e.message

section

variable {source : String} {all : List Token}
  (clean : (Cursor.ofSource source).results = all.map .ok)

include clean

theorem exists_eq_append_ending : ∃ (front : List Token) (line : Nat),
    all = front ++ [Token.ending line] ∧ ∀ t ∈ front, t.terminal ≠ .ending := by
  obtain ⟨rs, line, results, others⟩ := exists_results_eq source
  obtain ⟨front, last, rfl, rfl, ending⟩ :=
    List.map_eq_append_iff.mp (clean.symm.trans results)
  obtain ⟨t, rfl, token⟩ := List.map_eq_singleton_iff.mp ending
  cases token
  exact ⟨front, line, rfl, fun t ht => others t (List.mem_map_of_mem ht)⟩

theorem lexical_of_results : ∀ t ∈ all, t.Lexical := by
  obtain ⟨front, line, rfl, others⟩ := exists_eq_append_ending clean
  refine List.forall_mem_append.mpr ⟨fun t ht => .inl ?_, ?_⟩
  · have mem : .ok t ∈ (Cursor.ofSource source).results := by simp [clean, ht]
    exact Cursor.spelled_of_mem_results mem (others t ht)
  · exact List.forall_mem_singleton.mpr (.inr rfl)

theorem exists_eq_of_reads {before : List Token} {s : Session}
    (reads : Session.Reads (Session.ofSource source).advance.advance before s)
    (others : ∀ t ∈ before, t.terminal ≠ .ending) :
    ∃ after, all = before ++ s.current :: after := by
  obtain ⟨front, line, rfl, -⟩ := exists_eq_append_ending clean
  have window : (Session.ofSource source).advance.advance.window =
      Window.ofItems ((front ++ [Token.ending line]).map Item.quiet) := by
    rw [← group_map_ok, ← clean]
    exact Session.window_start source
  have passes := reads.passes
  rw [window] at passes
  exact exists_eq_of_passes rfl passes others

/-- Character literals have values, so a complaint is about another token or about an integer. -/
theorem message_of_complaint {t : Token} (mem : t ∈ all) {x : Expectation} {message : String}
    (complaint : Complaint x t message) :
    t.terminal ∉ x.terminals ∧
      message = "expected " ++ x.describe t.terminal ++ ", but got " ++ t.terminal.describe ∨
    x = .expression ∧ t.terminal = .integer ∧
      ∃ e, readInt t.lexeme = .error e ∧ message = e.message := by
  cases complaint with
  | unexpected wrong => exact .inl ⟨wrong, rfl⟩
  | numeral expression integer error => exact .inr ⟨expression, integer, _, error, rfl⟩
  | character _ character noValue =>
    have mem' : .ok t ∈ (Cursor.ofSource source).results := clean ▸ List.mem_map_of_mem mem
    obtain ⟨w, value⟩ := exists_charValue mem' character
    rw [noValue] at value
    cases value

end

/-- **The first error of a source is at its first token that is not viable.** Let nothing be wrong
with the text of a source that is not a program. Then there is a first token up to which its tokens
are not those of any program, and the first diagnostic is about this token: an integer without a
value where a literal is viable, or another token than those that are viable there. -/
theorem first_error {source : String} {all : List Token} {report : Report}
    (clean : (Cursor.ofSource source).results = all.map .ok)
    (failed : parse source = .error report) :
    (∃ before t after, all = before ++ t :: after ∧ Viable before ∧ ¬Viable (before ++ [t])) ∧
    ∀ before t after, all = before ++ t :: after → Viable before → ¬Viable (before ++ [t]) →
      ∃ x d rest, report = d :: rest ∧ FirstError before t x d := by
  obtain ⟨stuck, start, diagnostics⟩ := Session.stuck_of_parse clean failed
  obtain @⟨before, s, q, x, message, reads, read, wants, complaint, first⟩ := stuck
  obtain ⟨after, rfl⟩ :=
    exists_eq_of_reads clean reads (Place.ne_ending_of_read read wants)
  obtain ⟨lexical, -⟩ := List.forall_mem_append.mp (lexical_of_results clean)
  have viable : Viable before := (viable_iff lexical).mpr ⟨q, read⟩
  have not_viable : ¬Viable (before ++ [s.current]) := by
    intro viable
    obtain ⟨r, next⟩ := viable.exists_read
    rw [Place.read_append_singleton read] at next
    exact complaint.next?_ne_some wants r next
  refine ⟨⟨before, s.current, after, rfl, viable, not_viable⟩, ?_⟩
  intro before' t' after' same viable' not_viable'
  obtain ⟨rfl, rfl⟩ := eq_of_not_viable same viable not_viable viable' not_viable'
  rw [start, diagnostics, List.nil_append] at first
  obtain ⟨rest, rfl⟩ := first
  have message := message_of_complaint clean (by simp) complaint
  exact ⟨x, _, rest, rfl, rfl, rfl, exists_viable_iff lexical read wants, message⟩

/-- An operator where a comma is missing. -/
def strayPlus : String :=
  "main \x7b\n deo 1 +\n\x7d"

theorem first_error_strayPlus : ∃ before t after x d rest,
    (Cursor.ofSource strayPlus).results = (before ++ t :: after).map .ok ∧
      parse strayPlus = .error (d :: rest) ∧
      d = ⟨.error, 2, "expected ',', but got '+'"⟩ ∧ FirstError before t x d := by
  have clean : (Cursor.ofSource strayPlus).results =
      [⟨.keyword .main, "main", 1⟩, ⟨.punct .braceOpen, "\x7b", 1⟩, ⟨.keyword .deo, "deo", 2⟩,
        ⟨.integer, "1", 2⟩, ⟨.punct .plus, "+", 2⟩, ⟨.punct .braceClose, "\x7d", 3⟩,
        Token.ending 3].map .ok := by cbv
  have failed : parse strayPlus =
      .error [⟨.error, 2, "expected ',', but got '+'"⟩] := by cbv
  obtain ⟨⟨before, t, after, split, viable, not_viable⟩, all⟩ := first_error clean failed
  obtain ⟨x, d, rest, report, first⟩ := all before t after split viable not_viable
  obtain ⟨rfl, rfl⟩ := List.cons.inj report
  exact ⟨before, t, after, x, _, _, split ▸ clean, failed, rfl, first⟩

end DeoLang
