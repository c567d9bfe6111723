import Mathlib
import DeoLang.Proofs.Session.Consumption
import DeoLang.Proofs.Session.Operation

/-!
# Bad literals

* `Session.BodyRound`, `Session.DeclRound`, `Enters`: the nodes that are read in order to read a
  node, and the sessions in which they are.
* `Session.Parsing`: a node is read at some moment of the parse of a source. `Parsing.moves` and
  `Parsing.moves_finished` say that this moment lies on the way of the parse.
* `Session.ErrorsBehind`: what stands between a token and the next one; `Parsing.errorsBehind`.
* `diagnostics_error_advance`: what becomes of an error at a token that has just been used up.
* **`literal_of_bad_integer`**: a bad integer literal is reported, unless an error in the text
  stands between it and the next token.
-/

namespace DeoLang

namespace Session

/-- A round of reading the statements of a body. -/
def BodyRound (s s' : Session) : Prop :=
  s.atBodyEnd = false ∧ s' = s.stmt.2

/-- A round of reading declarations. -/
def DeclRound (s s' : Session) : Prop :=
  s.atEnd = false ∧ s' = s.decl.2.settle

end Session

/-- In order to read the first node at the first session, the second one is read at the second
session. -/
inductive Enters : Node × Session → Node × Session → Prop where
  | literal (s : Session) : Enters (.expr, s) (.literal, s)
  | device (s : Session) : Enters (.deo, s) (.expr, s)
  | value {s s₁ s₂ : Session} {device : Expr} {comma : Token} : s.expr = (some device, s₁) →
      s₁.expect (.punct .comma) = (some comma, s₂) → Enters (.deo, s) (.expr, s₂)
  | output {s : Session} : s.check (.keyword .deo) = true → Enters (.stmt, s) (.deo, s.advance)
  | inner {s : Session} : s.check (.keyword .deo) = false → s.check (.punct .braceOpen) = true →
      Enters (.stmt, s) (.block, s)
  | statement {s s' : Session} : s.check (.punct .braceOpen) = true →
      Relation.ReflTransGen Session.BodyRound s.advance s' → s'.atBodyEnd = false →
      Enters (.block, s) (.stmt, s')
  | main {s : Session} : s.check (.keyword .main) = true → Enters (.decl, s) (.block, s.advance)
  | declaration {s s' : Session} : Relation.ReflTransGen Session.DeclRound s s' →
      s'.atEnd = false → Enters (.program, s) (.decl, s')

namespace Session

/-- At some moment of the parse of the source, the node is read at the session. -/
def Parsing (source : String) (n : Node) (s : Session) : Prop :=
  Relation.ReflTransGen Enters (.program, (ofSource source).advance.advance) (n, s)

/-! ## Moments of a parse -/

theorem moves_of_bodyRounds {s s' : Session} (h : Relation.ReflTransGen BodyRound s s') :
    Moves s s' ∧ s.stmts.2 = s'.stmts.2 := by
  induction h with
  | refl => exact ⟨.refl, rfl⟩
  | tail _ round ih =>
    obtain ⟨moves, same⟩ := ih
    obtain ⟨go, rfl⟩ := round
    exact ⟨moves.trans (works_stmt _).moves, by rw [same, stmts_eq, go]; rfl⟩

theorem moves_of_declRounds {s s' : Session} (h : Relation.ReflTransGen DeclRound s s') :
    Moves s s' ∧ s.decls.2 = s'.decls.2 := by
  induction h with
  | refl => exact ⟨.refl, rfl⟩
  | tail _ round ih =>
    obtain ⟨moves, same⟩ := ih
    obtain ⟨go, rfl⟩ := round
    exact ⟨(moves.trans (moves_decl _)).trans (moves_settle _), by rw [same, decls_eq, go]; rfl⟩

theorem moves_of_enters {a b : Node × Session} (h : Enters a b) :
    Moves a.2 b.2 ∧ Moves (b.1.apply b.2) (a.1.apply a.2) := by
  cases h with
  | literal s => exact ⟨.refl, .refl⟩
  | device s =>
    refine ⟨.refl, ?_⟩
    change Moves s.expr.2 s.deo.2
    unfold deo
    split
    · next h => rw [h]
    next s₁ h =>
    have comma := s₁.works_expect (.punct .comma)
    rw [h]
    split
    · next h₁ => rw [h₁] at comma; exact comma.moves
    next s₂ h₁ =>
    have value := s₂.works_expr
    rw [h₁] at comma
    split
    · next h₂ => rw [h₂] at value; exact Works.moves (comma.trans value)
    · next h₂ => rw [h₂] at value; exact Works.moves (comma.trans value)
  | @value s s₁ s₂ device comma first second =>
    have before := s.works_expr
    have between := s₁.works_expect (.punct .comma)
    rw [first] at before
    rw [second] at between
    refine ⟨Works.moves (before.trans between), ?_⟩
    change Moves s₂.expr.2 s.deo.2
    rw [deo, first]
    dsimp only
    rw [second]
    dsimp only
    split
    · next h => rw [h]
    · next h => rw [h]
  | @output s keyword =>
    refine ⟨moves_advance s, ?_⟩
    change Moves s.advance.deo.2 s.stmt.2
    rw [stmt_eq, if_pos keyword]
  | @inner s noKeyword brace =>
    refine ⟨.refl, ?_⟩
    change Moves s.block.2 s.stmt.2
    rw [stmt_eq, noKeyword, brace]
    exact .refl
  | @statement s s' brace rounds go =>
    obtain ⟨moves, same⟩ := moves_of_bodyRounds rounds
    refine ⟨(moves_advance s).trans moves, ?_⟩
    change Moves s'.stmt.2 s.block.2
    rw [block_eq, if_pos brace]
    dsimp only
    rw [same, stmts_eq, go]
    exact Works.moves ((works_stmts _).trans (works_expect _ _))
  | @main s keyword =>
    refine ⟨moves_advance s, ?_⟩
    change Moves s.advance.block.2 s.decl.2
    rw [decl, if_pos keyword]
  | @declaration s s' rounds go =>
    obtain ⟨moves, same⟩ := moves_of_declRounds rounds
    refine ⟨moves, ?_⟩
    change Moves s'.decl.2 s.program.2
    rw [program]
    dsimp only
    rw [same, decls_eq, go]
    exact ((moves_settle _).trans (moves_decls _)).trans (works_expect _ _).moves

theorem moves_of_reflTransGen_enters {a b : Node × Session}
    (h : Relation.ReflTransGen Enters a b) :
    Moves a.2 b.2 ∧ Moves (b.1.apply b.2) (a.1.apply a.2) := by
  induction h with
  | refl => exact ⟨.refl, .refl⟩
  | tail _ enters ih =>
    obtain ⟨before, behind⟩ := moves_of_enters enters
    exact ⟨ih.1.trans before, behind.trans ih.2⟩

section

variable {source : String} {n : Node} {s : Session}

theorem Parsing.moves (h : Parsing source n s) : Moves (ofSource source).advance.advance s :=
  (moves_of_reflTransGen_enters h).1

theorem Parsing.moves_finished (h : Parsing source n s) :
    Moves (n.apply s) (ofSource source).finished := by
  have behind := (moves_of_reflTransGen_enters h).2
  change Moves (n.apply s) (ofSource source).advance.advance.program.2 at behind
  rwa [program_eq] at behind

/-- Diagnostics that are there behind a node are those that the report of the source starts
with. -/
theorem Parsing.exists_parse_eq (h : Parsing source n s) (reported : (n.apply s).diagnostics ≠ []) :
    ∃ report, parse source = .error report ∧ (n.apply s).diagnostics <+: report := by
  have grown := h.moves_finished.prefix_diagnostics
  have kept : (ofSource source).finished.diagnostics ≠ [] := by
    intro clean
    rw [clean] at grown
    exact reported (List.prefix_nil.mp grown)
  exact ⟨_, by rw [parse_eq, finish_snd, if_neg kept], grown⟩

end

theorem parsing_firstLiteral {source : String} {s : Session}
    (start : (ofSource source).advance.advance = s) (main : s.check (.keyword .main) = true)
    (brace : s.advance.check (.punct .braceOpen) = true)
    (deo : s.advance.advance.check (.keyword .deo) = true) :
    Parsing source .literal s.advance.advance.advance := by
  subst start
  have decl := Enters.declaration .refl (atEnd_of_check main (by decide))
  have stmt := Enters.statement brace .refl
    (atBodyEnd_eq_false (check_iff.mp deo) (by decide) (by decide))
  exact .head decl (.head (.main main) (.head stmt (.head (.output deo)
    (.head (.device _) (.single (.literal _))))))

end Session

/-! ## What stands behind a token -/

namespace Window

theorem exists_iterate_slide_eq {front : List Item} {last : Item} {n : Nat}
    (ending : last.token.terminal = .ending)
    (go : (slide^[n] (ofItems (front ++ [last]))).current.terminal ≠ .ending) :
    ∃ before i j rest, front ++ [last] = before ++ i :: j :: rest ∧ before.length = n ∧
      slide^[n] (ofItems (front ++ [last])) = ofItems (i :: j :: rest) := by
  induction n generalizing front last with
  | zero =>
    cases front with
    | nil => exact absurd ending go
    | cons i front =>
      obtain ⟨j, rest, items⟩ := exists_append_singleton_eq_cons front last
      rw [List.cons_append, items]
      exact ⟨[], i, j, rest, rfl, rfl, rfl⟩
  | succ n ih =>
    rw [Function.iterate_succ_apply] at go ⊢
    cases front with
    | nil =>
      -- behind the last item there is only the end
      obtain ⟨before, i, j, rest, items, -⟩ :=
        @ih [] ⟨[], Token.ending last.token.line⟩ rfl go
      have length := congrArg List.length items
      simp only [List.nil_append, List.length_append, List.length_cons, List.length_nil] at length
      omega
    | cons i front =>
      obtain ⟨j, rest, items⟩ := exists_append_singleton_eq_cons front last
      have slid : (ofItems (i :: front ++ [last])).slide = ofItems (front ++ [last]) := by
        rw [List.cons_append, items, slide_ofItems]
      rw [slid] at go ⊢
      obtain ⟨before, k, l, later, shape, count, window⟩ := ih ending go
      exact ⟨i :: before, k, l, later, congrArg (i :: ·) shape, congrArg (· + 1) count, window⟩

end Window

namespace Session

/-- The errors in the text between the current token and the next one. The tokens in front of the
current one are those that the session has gone over, apart from the two ends that it starts
with. -/
def ErrorsBehind (source : String) (s : Session) (errors : List LexError) : Prop :=
  ∃ before next after, (Cursor.ofSource source).results =
      before ++ .ok s.current :: (errors.map .error ++ .ok next :: after) ∧
    (tokensOf before).length + 2 = s.advances

theorem Parsing.errorsBehind {source : String} {n : Node} {s : Session} (h : Parsing source n s)
    (go : s.atEnd = false) : s.ErrorsBehind source s.window.errors := by
  obtain ⟨front, last, _, items, ending, -⟩ := exists_items_eq source
  obtain ⟨count, advances, window⟩ := h.moves.acts.exists_iterate
  rw [window_start, items] at window
  rw [atEnd_eq_false_iff, current, window] at go
  obtain ⟨before, i, j, rest, shape, length, here⟩ :=
    Window.exists_iterate_slide_eq (by rw [ending]; rfl) go
  have joined := flatMap_results_ofSource source
  rw [items, shape] at joined
  refine ⟨before.flatMap Item.results ++ i.errors.map .error, j.token,
    rest.flatMap Item.results, ?_, ?_⟩
  · rw [← joined, current, window, here, Window.current_ofItems, Window.errors_ofItems]
    simp [Item.results]
  · rw [tokensOf_append, tokensOf_map_error, List.append_nil, tokensOf_flatMap_results,
      List.length_map, length, advances, advances_advance, advances_advance]
    exact Nat.add_comm count 2

theorem literal_of_bad {s : Session} (integer : s.current.terminal = .integer) {e : NumeralError}
    (bad : readInt s.current.lexeme = .error e) :
    s.literal = (none, s.advance.error s.current.line e.message) := by
  rw [literal, integer]
  simp only [bad]

/-- An error at a token that has just been used up is recorded if there are no errors in the text
behind it. Otherwise the first of these is. -/
theorem diagnostics_error_advance {s : Session} (calm : s.panic = false) (line : Nat)
    (message : String) : (s.advance.error line message).diagnostics =
      s.diagnostics ++
        [(s.window.errors.head?.map LexError.diagnostic).getD ⟨.error, line, message⟩] := by
  rw [error, diagnostics_report, panic_advance, diagnostics_advance, calm]
  cases s.window.errors <;> simp

end Session

theorem LexFault.exists_prefix_message (f : LexFault) :
    ∃ c ∈ ['u', 'n', 'c'], [c] <+: f.message.toList := by
  cases f with
  | unknown c => exact ⟨'u', by decide, prefix_toList_append _ (by decide)⟩
  | noDigits base => exact ⟨'n', by decide, by cases base <;> decide⟩
  | unterminated => exact ⟨'u', by decide, by decide⟩
  | notAscii c => exact ⟨'c', by decide, prefix_toList_append _ (by decide)⟩

theorem LexFault.message_ne (f : LexFault) (e : NumeralError) : f.message ≠ e.message := by
  have numeral : ∃ c ∈ ['i', 'm'], [c] <+: e.message.toList := by
    cases e with
    | overflow => exact ⟨'i', by decide, by decide⟩
    | malformed lexeme =>
      exact ⟨'m', by decide, prefix_toList_append _ (prefix_toList_append _ (by decide))⟩
  have others : ∀ c ∈ ['u', 'n', 'c'], c ∉ ['i', 'm'] := by simp
  obtain ⟨c, hc, fault⟩ := f.exists_prefix_message
  obtain ⟨d, hd, numeral⟩ := numeral
  intro same
  rw [same] at fault
  have initial := (List.prefix_of_prefix_length_le fault numeral (Nat.le_refl 1)).eq_of_length rfl
  rw [← List.singleton_inj.mp initial] at hd
  exact others c hc hd

/-- **A bad integer literal is reported, unless an error in the text stands between it and the next
token.** Then the first such error is reported in its place, since the token of the literal is used
up before its value is looked at. Nothing else that follows the literal plays a part. -/
theorem literal_of_bad_integer {source : String} {s : Session}
    (parsing : Session.Parsing source .literal s) (calm : s.panic = false)
    (integer : s.current.terminal = .integer) {e : NumeralError}
    (bad : readInt s.current.lexeme = .error e) : ∃ errors report,
      s.ErrorsBehind source errors ∧ s.literal.1 = none ∧ s.literal.2.panic = true ∧
      s.literal.2.diagnostics = s.diagnostics ++
        [(errors.head?.map LexError.diagnostic).getD ⟨.error, s.current.line, e.message⟩] ∧
      (s.literal.2.diagnostics = s.diagnostics ++ [⟨.error, s.current.line, e.message⟩] ↔
        errors = []) ∧
      parse source = .error report ∧ s.literal.2.diagnostics <+: report := by
  have go : s.atEnd = false := Session.atEnd_eq_false_iff.mpr (by rw [integer]; decide)
  have literal := Session.literal_of_bad integer bad
  have diagnostics : s.literal.2.diagnostics = s.diagnostics ++
      [(s.window.errors.head?.map LexError.diagnostic).getD
        ⟨.error, s.current.line, e.message⟩] := by
    rw [literal, Session.diagnostics_error_advance calm]
  have own : s.literal.2.diagnostics = s.diagnostics ++ [⟨.error, s.current.line, e.message⟩] ↔
      s.window.errors = [] := by
    rw [diagnostics, List.append_cancel_left_eq, List.singleton_inj]
    cases s.window.errors with
    | nil => simp
    | cons first later =>
      have other : first.diagnostic.message ≠ e.message := first.fault.message_ne e
      simp only [List.head?_cons, Option.map_some, Option.getD_some, reduceCtorEq, iff_false]
      exact fun same => other (congrArg Diagnostic.message same)
  have reported : s.literal.2.diagnostics ≠ [] := by
    rw [diagnostics]
    exact List.append_ne_nil_of_right_ne_nil _ (List.cons_ne_nil _ _)
  obtain ⟨report, failed, stays⟩ := parsing.exists_parse_eq reported
  refine ⟨s.window.errors, report, parsing.errorsBehind go, ?_, ?_, diagnostics, own, failed, stays⟩
  · rw [literal]
  · rw [literal, Session.panic_error]

/-- A bad literal with an error in the text further behind. -/
def faultBehind : String :=
  "main \x7b deo 5x1, 'a \x7d"

/-- The session in front of the bad literal. -/
def faultBehindLiteral : Session where
  window := Window.ofItems [.quiet ⟨.integer, "5x1", 1⟩, .quiet ⟨.punct .comma, ",", 1⟩,
    ⟨[⟨.unterminated, 1⟩], ⟨.punct .braceClose, "\x7d", 1⟩⟩, .quiet (Token.ending 1)]
  panic := false
  history := [.lexed ⟨.punct .comma, ",", 1⟩, .lexed ⟨.integer, "5x1", 1⟩,
    .lexed ⟨.keyword .deo, "deo", 1⟩, .lexed ⟨.punct .braceOpen, "\x7b", 1⟩,
    .lexed ⟨.keyword .main, "main", 1⟩]

theorem parsing_faultBehind : Session.Parsing faultBehind .literal faultBehindLiteral := by
  have results : (Cursor.ofSource faultBehind).results = [.ok ⟨.keyword .main, "main", 1⟩,
      .ok ⟨.punct .braceOpen, "\x7b", 1⟩, .ok ⟨.keyword .deo, "deo", 1⟩, .ok ⟨.integer, "5x1", 1⟩,
      .ok ⟨.punct .comma, ",", 1⟩, .error ⟨.unterminated, 1⟩, .ok ⟨.punct .braceClose, "\x7d", 1⟩,
      .ok (Token.ending 1)] := by cbv
  have parsing := @Session.parsing_firstLiteral faultBehind _ rfl
  rw [Session.ofSource, Window.ofSource, results] at parsing
  exact parsing rfl rfl rfl

/-- The literal is reported: nothing but a comma comes next. -/
theorem literal_of_bad_integer_faultBehind :
    Session.Parsing faultBehind .literal faultBehindLiteral ∧
      faultBehindLiteral.panic = false ∧ faultBehindLiteral.current.terminal = .integer ∧
      readInt faultBehindLiteral.current.lexeme = .error (.malformed "5x1") ∧
      faultBehindLiteral.ErrorsBehind faultBehind [] ∧
      ∃ report, parse faultBehind = .error report ∧
        [⟨.error, 1, "malformed integer literal '5x1'"⟩] <+: report := by
  have bad : readInt faultBehindLiteral.current.lexeme = .error (.malformed "5x1") := rfl
  have diagnostics : faultBehindLiteral.literal.2.diagnostics = faultBehindLiteral.diagnostics ++
      [⟨.error, 1, (NumeralError.malformed "5x1").message⟩] := by
    rw [Session.literal_of_bad rfl bad, Session.diagnostics_error_advance rfl]
    rfl
  have message : (NumeralError.malformed "5x1").message = "malformed integer literal '5x1'" := rfl
  obtain ⟨errors, report, behind, -, -, -, own, failed, stays⟩ :=
    literal_of_bad_integer parsing_faultBehind rfl rfl bad
  rw [own.mp diagnostics] at behind
  rw [diagnostics, message] at stays
  exact ⟨parsing_faultBehind, rfl, rfl, bad, behind, report, failed, stays⟩

/-- A bad literal with an error in the text between it and the next token. -/
def faultBetween : String :=
  "main \x7b deo 99999\n@, 1 \x7d"

/-- The session in front of the bad literal. -/
def faultBetweenLiteral : Session where
  window := Window.ofItems [.quiet ⟨.integer, "99999", 1⟩,
    ⟨[⟨.unknown '@', 2⟩], ⟨.punct .comma, ",", 2⟩⟩, .quiet ⟨.integer, "1", 2⟩,
    .quiet ⟨.punct .braceClose, "\x7d", 2⟩, .quiet (Token.ending 2)]
  panic := false
  history := [.lexed ⟨.punct .comma, ",", 2⟩, .lexed ⟨.integer, "99999", 1⟩,
    .lexed ⟨.keyword .deo, "deo", 1⟩, .lexed ⟨.punct .braceOpen, "\x7b", 1⟩,
    .lexed ⟨.keyword .main, "main", 1⟩]

theorem parsing_faultBetween : Session.Parsing faultBetween .literal faultBetweenLiteral := by
  have results : (Cursor.ofSource faultBetween).results = [.ok ⟨.keyword .main, "main", 1⟩,
      .ok ⟨.punct .braceOpen, "\x7b", 1⟩, .ok ⟨.keyword .deo, "deo", 1⟩,
      .ok ⟨.integer, "99999", 1⟩, .error ⟨.unknown '@', 2⟩, .ok ⟨.punct .comma, ",", 2⟩,
      .ok ⟨.integer, "1", 2⟩, .ok ⟨.punct .braceClose, "\x7d", 2⟩,
      .ok (Token.ending 2)] := by cbv
  have parsing := @Session.parsing_firstLiteral faultBetween _ rfl
  rw [Session.ofSource, Window.ofSource, results] at parsing
  exact parsing rfl rfl rfl

/-- The literal is not reported: the stray character behind it is, on the next line. -/
theorem literal_of_bad_integer_faultBetween :
    Session.Parsing faultBetween .literal faultBetweenLiteral ∧
      faultBetweenLiteral.panic = false ∧ faultBetweenLiteral.current = ⟨.integer, "99999", 1⟩ ∧
      readInt faultBetweenLiteral.current.lexeme = .error .overflow ∧
      faultBetweenLiteral.literal.2.diagnostics ≠
        faultBetweenLiteral.diagnostics ++ [⟨.error, 1, NumeralError.overflow.message⟩] ∧
      ∃ report, parse faultBetween = .error report ∧
        [⟨.error, 2, "unrecognized character '@'"⟩] <+: report := by
  have bad : readInt faultBetweenLiteral.current.lexeme = .error .overflow := rfl
  have diagnostics : faultBetweenLiteral.literal.2.diagnostics =
      [⟨.error, 2, (LexFault.unknown '@').message⟩] := by
    rw [Session.literal_of_bad rfl bad, Session.diagnostics_error_advance rfl]
    rfl
  have message : (LexFault.unknown '@').message = "unrecognized character '@'" := by
    decide +kernel
  have reported : faultBetweenLiteral.literal.2.diagnostics ≠ [] := by
    rw [diagnostics]
    exact List.cons_ne_nil _ _
  obtain ⟨report, failed, stays⟩ := parsing_faultBetween.exists_parse_eq reported
  refine ⟨parsing_faultBetween, rfl, rfl, bad, fun same => ?_, report, failed, ?_⟩
  · rw [diagnostics] at same
    have lines := congrArg (List.map Diagnostic.line) same
    exact absurd lines (by decide)
  · rw [← message, ← diagnostics]
    exact stays

end DeoLang
