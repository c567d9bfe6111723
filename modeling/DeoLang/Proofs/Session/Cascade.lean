import Mathlib
import DeoLang.Proofs.Session.Parse
import DeoLang.Proofs.Token.Supply

/-!
# Cascades of errors

* `Session.Ordered`: the diagnostics of a session are in the order of their lines, and none is
  behind the current token; `Ordered.of_moves`.
* `Session.room`: how many diagnostics there can be until recording starts again;
  `Works.room_eq`.
* `Session.mains`: the main blocks still to come.
* `length_diagnostics_decls`: each diagnostic but one has a main block of its own.
* **`length_le_of_parse`**: the diagnostics of a source are at most one more than its main keywords,
  in the order of their lines, and none is behind the end.
-/

namespace DeoLang

/-- Whether a token is the keyword of a main block. -/
def Token.isMain (t : Token) : Bool :=
  t.terminal = .keyword .main

namespace Session

/-! ## Lines -/

/-- The diagnostics are in the order of their lines, and so is what the window has in front of it,
behind them. -/
structure Ordered (last : Nat) (s : Session) : Prop where
  window : s.window.Rising last
  sorted : (s.diagnostics.map Diagnostic.line).Pairwise (· ≤ ·)
  below : ∀ d ∈ s.diagnostics, d.line ≤ s.current.line

section

variable {last : Nat} {s s' : Session}

theorem pairwise_line_append {ds : Report} (sorted : (ds.map Diagnostic.line).Pairwise (· ≤ ·))
    {d : Diagnostic} (above : ∀ d' ∈ ds, d'.line ≤ d.line) :
    ((ds ++ [d]).map Diagnostic.line).Pairwise (· ≤ ·) := by
  rw [List.map_append, List.pairwise_append]
  refine ⟨sorted, List.pairwise_singleton _ _, fun l hl m hm => ?_⟩
  obtain ⟨d', hd', rfl⟩ := List.mem_map.mp hl
  obtain rfl : m = d.line := by simpa using hm
  exact above d' hd'

theorem Ordered.report (h : s.Ordered last) {d : Diagnostic} (here : d.line ≤ s.current.line)
    (above : s.panic = false → ∀ d' ∈ s.diagnostics, d'.line ≤ d.line) :
    (s.report d).Ordered last := by
  refine ⟨by simpa using h.window, ?_, ?_⟩
  · rw [diagnostics_report]
    cases panic : s.panic with
    | true => exact h.sorted
    | false => exact pairwise_line_append h.sorted (above panic)
  · have same : (s.report d).current = s.current := by simp [current]
    rw [diagnostics_report, same]
    split
    · exact h.below
    · exact List.forall_mem_append.mpr ⟨h.below, by simpa using here⟩

theorem Ordered.advance (h : s.Ordered last) : s.advance.Ordered last := by
  obtain ⟨forward, errors⟩ := h.window.errors
  have below : ∀ d ∈ s.diagnostics, d.line ≤ s.advance.current.line :=
    fun d hd => Nat.le_trans (h.below d hd) forward
  refine ⟨h.window.slide, ?_, ?_⟩
  · rw [diagnostics_advance]
    split
    · exact h.sorted
    cases first : s.window.errors.head? with
    | none => simpa using h.sorted
    | some e =>
      have between := errors e (List.mem_of_head? first)
      exact pairwise_line_append h.sorted fun d hd => Nat.le_trans (h.below d hd) between.1
  · rw [diagnostics_advance]
    split
    · exact below
    refine List.forall_mem_append.mpr ⟨below, fun d hd => ?_⟩
    obtain ⟨e, first, rfl⟩ := Option.map_eq_some_iff.mp (Option.mem_toList.mp hd)
    exact (errors e (List.mem_of_head? first)).2

theorem Ordered.of_move (h : s.Ordered last) (move : Move s s') : s'.Ordered last := by
  cases move with
  | work work =>
    cases work with
    | advance => exact h.advance
    | error message => exact h.report (Nat.le_refl _) fun _ => h.below
    | value message =>
      refine h.advance.report h.window.errors.1 fun calm => ?_
      -- nothing was recorded on the way, so the diagnostics are those in front of the literal
      obtain ⟨calm, quiet⟩ := panic_advance_eq_false calm
      rw [diagnostics_advance, calm, quiet]
      simpa using h.below
  | resume =>
    have same := diagnostics_cons s.window false (e := .recovered) rfl s.history
    refine ⟨h.window, ?_, ?_⟩
    · rw [same]
      exact h.sorted
    · rw [same]
      exact h.below

/-- **Whatever a session does, its diagnostics stay in the order of their lines.** -/
theorem Ordered.of_moves (h : s.Ordered last) (moves : Moves s s') : s'.Ordered last := by
  induction moves with
  | refl => exact h
  | tail _ move ih => exact ih.of_move move

end

/-! ## Room for diagnostics -/

/-- How many diagnostics there can be until recording starts again. -/
def room (s : Session) : Nat :=
  s.diagnostics.length + if s.panic then 0 else 1

theorem room_of_panic {s : Session} (h : s.panic = true) : s.room = s.diagnostics.length := by
  simp [room, h]

theorem room_of_calm {s : Session} (h : s.panic = false) : s.room = s.diagnostics.length + 1 := by
  simp [room, h]

theorem room_report (s : Session) (d : Diagnostic) : (s.report d).room = s.room := by
  rw [room_of_panic (s.panic_report d), diagnostics_report]
  cases panic : s.panic with
  | true => rw [room_of_panic panic]; rfl
  | false => rw [room_of_calm panic]; simp

theorem room_advance (s : Session) : s.advance.room = s.room := by
  unfold room
  rw [diagnostics_advance, panic_advance]
  cases s.panic <;> cases s.window.errors <;> simp

theorem Work.room_eq {s s' : Session} (h : Work s s') : s'.room = s.room := by
  cases h with
  | advance => exact s.room_advance
  | error message => exact s.room_report _
  | value message => exact (room_report _ _).trans s.room_advance

/-- **Until recording starts again there is room for one diagnostic.** -/
theorem Works.room_eq {s s' : Session} (h : Works s s') : s'.room = s.room := by
  induction h with
  | refl => rfl
  | tail _ work ih => exact work.room_eq.trans ih

/-! ## Main blocks to come -/

/-- How many main blocks are current or still to come. -/
def mains (s : Session) : Nat :=
  s.window.tokens.countP Token.isMain

theorem mains_advance (s : Session) :
    s.advance.mains + (if s.check (.keyword .main) then 1 else 0) = s.mains := by
  obtain ⟨⟨current, ahead, queue⟩, panic, history⟩ := s
  have notMain (line : Nat) : (Token.ending line).isMain = false := rfl
  simp only [mains, window_advance, Window.slide, Window.tokens, check, Window.check]
  cases queue <;>
    simp only [List.map_cons, List.map_nil, List.countP_cons, List.countP_nil, notMain] <;>
    simp [Token.isMain]

theorem mains_report (s : Session) (d : Diagnostic) : (s.report d).mains = s.mains := by
  simp [mains]

theorem mains_advance_le (s : Session) : s.advance.mains ≤ s.mains := by
  have := s.mains_advance
  omega

theorem Move.mains_le {s s' : Session} (h : Move s s') : s'.mains ≤ s.mains := by
  cases h with
  | work work =>
    cases work with
    | advance => exact s.mains_advance_le
    | error message => exact Nat.le_of_eq (s.mains_report _)
    | value message => exact Nat.le_trans (Nat.le_of_eq (mains_report _ _)) s.mains_advance_le
  | resume => exact Nat.le_refl _

theorem Moves.mains_le {s s' : Session} (h : Moves s s') : s'.mains ≤ s.mains := by
  induction h with
  | refl => exact Nat.le_refl _
  | tail _ move ih => exact Nat.le_trans move.mains_le ih

theorem mains_decl_lt {s : Session} (h : s.check (.keyword .main) = true) :
    s.decl.2.mains < s.mains := by
  have first := s.mains_advance
  have rest := s.advance.works_block.moves.mains_le
  rw [if_pos h] at first
  rw [decl, if_pos h]
  omega

/-! ## Recovery -/

theorem diagnostics_recover {s : Session} (h : s.panic = true) :
    s.recover.diagnostics = s.diagnostics := by
  fun_induction recover s with
  | case1 s stop => exact diagnostics_cons _ _ rfl _
  | case2 s stop ih =>
    rw [ih (by rw [panic_advance, h]; rfl), diagnostics_advance, if_pos h]

/-- A declaration that does not start with its keyword is an error. -/
theorem panic_decl {s : Session} (h : s.check (.keyword .main) = false) :
    s.decl.2.panic = true := by
  rw [decl, h]
  simp [panic_advance]

/-- **Each diagnostic but one has a main block of its own.** It is recorded behind the keyword,
unless it is the first one: up to the keyword the errors in front of it are held back. -/
theorem length_diagnostics_decls (s : Session) :
    (s.atEnd = true → s.decls.2.diagnostics.length = s.diagnostics.length) ∧
    (s.atEnd = false → s.decls.2.diagnostics.length +
      (if s.check (.keyword .main) then 1 else 0) ≤ s.room + s.mains) := by
  induction s using decls_induction with
  | stop s h =>
    rw [decls_eq, if_pos h]
    exact ⟨fun _ => rfl, fun h' => absurd (h.symm.trans h') (by simp)⟩
  | step s h ih =>
    refine ⟨fun h' => absurd (h.symm.trans h') (by simp), fun _ => ?_⟩
    have decls : s.decls.2 = s.decl.2.settle.decls.2 := by rw [decls_eq, h]; rfl
    have room := s.works_decl.room_eq
    have left : s.decl.2.settle.mains + (if s.check (.keyword .main) then 1 else 0) ≤ s.mains := by
      have settled := s.decl.2.moves_settle.mains_le
      split
      · next main => exact Nat.le_trans (Nat.succ_le_succ settled) (mains_decl_lt main)
      · exact Nat.le_trans settled s.works_decl.moves.mains_le
    rw [decls]
    cases panic : s.decl.2.panic with
    | false =>
      have main : s.check (.keyword .main) = true := by
        cases main : s.check (.keyword .main) with
        | true => rfl
        | false => rw [panic_decl main] at panic; cases panic
      rw [settle_of_calm panic] at left ih ⊢
      rw [room_of_calm panic] at room
      rw [if_pos main] at left ⊢
      cases atEnd : s.decl.2.atEnd with
      | true =>
        have last := ih.1 atEnd
        omega
      | false =>
        have rest := ih.2 atEnd
        rw [room_of_calm panic] at rest
        omega
    | true =>
      have settle : s.decl.2.settle = s.decl.2.recover := by rw [settle, if_pos panic]
      obtain ⟨calm, stop⟩ := s.decl.2.recover_spec
      have same := congrArg List.length (diagnostics_recover panic)
      rw [settle] at left ih ⊢
      rw [room_of_panic panic] at room
      cases atEnd : s.decl.2.recover.atEnd with
      | true =>
        have last := ih.1 atEnd
        omega
      | false =>
        have rest := ih.2 atEnd
        rw [atEnd, Bool.false_or] at stop
        rw [if_pos stop, room_of_calm calm] at rest
        omega

end Session

/-- Whether a result is the keyword of a main block. -/
def Lexed.isMain : Lexed → Bool
  | .ok t => t.isMain
  | .error _ => false

theorem countP_isMain_results (items : List Item) :
    (items.flatMap Item.results).countP Lexed.isMain = items.countP fun i => i.token.isMain := by
  have errors (es : List LexError) :
      (es.map (Except.error (α := Token))).countP Lexed.isMain = 0 := by
    rw [List.countP_map, List.countP_eq_zero]
    simp [Lexed.isMain]
  induction items with
  | nil => rfl
  | cons i items ih =>
    rw [List.flatMap_cons, List.countP_append, ih, Item.results, List.countP_append, errors]
    cases main : i.token.isMain <;> simp [Lexed.isMain, main, Nat.add_comm]

theorem countP_tokens_ofItems (i : Item) (rest : List Item) :
    (Window.ofItems (i :: rest)).tokens.countP Token.isMain =
      (i :: rest).countP fun i => i.token.isMain := by
  cases rest with
  | nil => simp [Window.ofItems, Window.tokens, Token.ending, Token.isMain, List.countP_cons]
  | cons j rest =>
    change ((i :: j :: rest).map Item.token).countP Token.isMain = _
    rw [List.countP_map]
    rfl

theorem mains_advance_advance (source : String) :
    (Session.ofSource source).advance.advance.mains =
      (Cursor.ofSource source).results.countP Lexed.isMain := by
  have items := flatMap_results_ofSource source
  obtain ⟨front, final, shape, -⟩ := exists_group_eq source
  obtain ⟨i, rest, cons⟩ := exists_append_singleton_eq_cons front final
  have window : (Session.ofSource source).advance.advance.window = Window.ofItems (i :: rest) := by
    rw [← cons, ← shape]
    exact Session.window_start source
  rw [shape, cons] at items
  rw [Session.mains, window, countP_tokens_ofItems, ← countP_isMain_results, items]

theorem length_diagnostics_le (source : String) :
    (Session.ofSource source).advance.advance.decls.2.diagnostics.length ≤
      1 + (Cursor.ofSource source).results.countP Lexed.isMain := by
  have room : (Session.ofSource source).advance.advance.room = 1 := by
    rw [Session.room_advance, Session.room_advance]
    rfl
  obtain ⟨ended, going⟩ := (Session.ofSource source).advance.advance.length_diagnostics_decls
  rw [← mains_advance_advance]
  cases atEnd : (Session.ofSource source).advance.advance.atEnd with
  | true =>
    have same := ended atEnd
    rw [Session.room] at room
    omega
  | false =>
    have bound := going atEnd
    omega

/-- **Cascades are bounded and diagnostics are ordered.** The report of a source that has no program
holds at most one diagnostic more than the source has main keywords. Its diagnostics are in the
order of their lines, and none is behind the line of the end. -/
theorem length_le_of_parse {source : String} {report : Report} (h : parse source = .error report) :
    report.length ≤ 1 + (Cursor.ofSource source).results.countP Lexed.isMain ∧
      (report.map Diagnostic.line).Pairwise (· ≤ ·) ∧
      ∃ last, (Cursor.ofSource source).results.getLast? = some (.ok (Token.ending last)) ∧
        ∀ d ∈ report, d.line ≤ last := by
  obtain ⟨rfl, -⟩ := diagnostics_of_parse h
  obtain ⟨rs, last, results, -⟩ := exists_results_eq source
  have start : (Session.ofSource source).Ordered last :=
    ⟨Window.rising_ofSource results, .nil, by simp [Session.ofSource, Session.diagnostics]⟩
  have ordered := start.of_moves (Session.moves_finished _)
  refine ⟨?_, ?_, last, by rw [results]; simp, fun d hd => ?_⟩
  · rw [diagnostics_finish]
    exact length_diagnostics_le source
  · rw [Session.finish_snd]
    exact ordered.sorted
  · rw [Session.finish_snd] at hd
    exact Nat.le_trans (ordered.below d hd) ordered.window.current_le

/-- Two broken main blocks, the first of them with more than one error. -/
def brokenMains : String :=
  "main \x7b deo ,\n + \x7d\nmain \x7b deo 1 \x7d"

theorem length_le_of_parse_brokenMains : ∃ report, parse brokenMains = .error report ∧
    report.length = 2 ∧
    report.length ≤ 1 + (Cursor.ofSource brokenMains).results.countP Lexed.isMain ∧
      (report.map Diagnostic.line).Pairwise (· ≤ ·) ∧
      ∃ last, (Cursor.ofSource brokenMains).results.getLast? = some (.ok (Token.ending last)) ∧
        ∀ d ∈ report, d.line ≤ last := by
  have errors : parse brokenMains =
      .error [⟨.error, 1, "expected expression, but got ','"⟩,
        ⟨.error, 3, "expected ',', but got '\x7d'"⟩] := by cbv
  exact ⟨_, errors, rfl, length_le_of_parse errors⟩

end DeoLang
