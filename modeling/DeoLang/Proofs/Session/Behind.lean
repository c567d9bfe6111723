import DeoLang.Proofs.Session.Isolation

/-!
# Errors behind valid code

* `Session.decls_of_reads_last`: behind the last brace of main blocks declarations go on, unless the
  errors that come up there have to be left behind first.
* `Session.inStep_advance`: sessions that go on to the same items are in step.
* `Session.exists_reads_behind`: the tokens of a text are read in front of a source on the line
  behind them.
* `Session.diagnostics_behind`: behind valid code a source has the errors that it has if recording
  starts again in front of it.
* `Session.diagnostics_decls_settle`: that changes nothing, except in front of a main block.
* `LeadsWithErrors`: a source has errors in its text and then a main block.
* **`report_behind`**: all valid code has the same errors behind it, those of the source on its own
  unless it leads with errors.
-/

namespace DeoLang

namespace Session

variable {k : Nat} {s s' : Session}

/-! ## Behind main blocks -/

theorem exists_reads_of_quiet {us : List Token} {last : Token} {later : List Item}
    (window : s.window = Window.ofItems (us.map Item.quiet ++ .quiet last :: later))
    (calm : s.panic = false) : ∃ s', Reads s us s' ∧ s'.panic = false ∧
      s'.window = Window.ofItems (.quiet last :: later) := by
  induction us generalizing s with
  | nil => exact ⟨s, .nil calm, calm, window⟩
  | cons u us ih =>
    obtain ⟨next, rest, items⟩ : ∃ (next : Token) (rest : List Item),
        us.map Item.quiet ++ .quiet last :: later = .quiet next :: rest := by
      cases us with
      | nil => exact ⟨last, later, rfl⟩
      | cons v us => exact ⟨v, _, rfl⟩
    rw [List.map_cons, List.cons_append, items] at window
    have quiet : s.window.errors = [] := by
      rw [window, Window.errors_ofItems]
      rfl
    have calm' : s.advance.panic = false := by
      rw [panic_advance, calm, quiet]
      rfl
    have current : s.current = u := by
      rw [Session.current, window, Window.current_ofItems]
      rfl
    have window' : s.advance.window =
        Window.ofItems (us.map Item.quiet ++ .quiet last :: later) := by
      rw [window_advance, window, Window.slide_ofItems, items]
    obtain ⟨s', reads, behind⟩ := ih window' calm'
    exact ⟨s', current ▸ .cons calm quiet reads, behind⟩

theorem decls_of_reads_last {ts us : List Token} {mains : List Block} {last : Token}
    (tree : ProgramTree ts mains) (split : ts = us ++ [last]) (reads : Reads s us s')
    (current : s'.current = last) :
    s.decls = (mains ++ s'.advance.settle.decls.1, s'.advance.settle.decls.2) := by
  induction tree generalizing s us with
  | nil => simp at split
  | @main keyword opening closing body rest stmts later isMain isOpening inner isClosing tree ih =>
    rcases List.eq_nil_or_concat rest with rfl | ⟨front, t, rfl⟩
    · obtain ⟨rfl, same⟩ := List.append_inj' split rfl
      obtain rfl : closing = last := List.singleton_inj.mp same
      obtain ⟨notEnd, decl⟩ := decl_of_reads isMain isOpening inner reads (current ▸ isClosing)
      cases tree
      rw [decls_eq s, notEnd, decl]
      rfl
    · have whole : (keyword :: opening :: body ++ closing :: front) ++ [t] = us ++ [last] := by
        rw [← split]
        simp
      obtain ⟨rfl, same⟩ := List.append_inj' whole rfl
      obtain rfl : t = last := List.singleton_inj.mp same
      obtain ⟨s₁, first, reads⟩ := reads.exists_of_append
      obtain ⟨rfl, -, -, reads⟩ := Reads.cons_iff.mp reads
      obtain ⟨notEnd, decl⟩ := decl_of_reads isMain isOpening inner first isClosing
      rw [decls_eq s, notEnd, decl]
      dsimp only
      rw [settle_of_calm reads.calm, ih (List.concat_eq_append) reads]
      rfl

theorem inStep_advance {i i' last : Item} {front : List Item}
    (ending : last.token.terminal = .ending) (others : ∀ i ∈ front, i.token.terminal ≠ .ending)
    (window : s.window = Window.ofItems (i :: (front ++ [last])))
    (window' : s'.window = Window.ofItems (i' :: (front ++ [last]).map (Item.shift k)))
    (calm : s.panic = false) (calm' : s'.panic = false) (diagnostics : s.diagnostics = []) :
    InStep (.atEnding k s'.diagnostics ending) 0 s.advance s'.advance := by
  obtain ⟨j, rest, items⟩ := exists_append_singleton_eq_cons front last
  rw [items] at window window'
  have errors : s'.window.errors = s.window.errors.map (LexError.shift k) := by
    rw [window, window']
    rfl
  refine ⟨front, ?_, ?_, others, .inl rfl, ?_, ?_⟩
  · rw [window_advance, window, Window.slide_ofItems]
    exact congrArg Window.ofItems items.symm
  · rw [window_advance, window', List.map_cons, Window.slide_ofItems, ← List.map_cons, ← items,
      List.map_append]
    rfl
  · rw [panic_advance, panic_advance, calm, calm', errors, List.isEmpty_map]
  · rw [diagnostics_advance, diagnostics_advance, calm, calm', errors, diagnostics]
    cases s.window.errors <;> rfl

theorem advance_ofSource (source : String) : (ofSource source).advance.window =
      Window.ofItems (⟨[], Token.ending 1⟩ :: Item.group (Cursor.ofSource source).results) ∧
    (ofSource source).advance.panic = false ∧ (ofSource source).advance.diagnostics = [] := by
  have quiet : (ofSource source).window.errors = [] := rfl
  refine ⟨?_, ?_, ?_⟩
  · rw [window_advance]
    change (Window.ofSource source).slide = _
    rw [Window.ofSource_eq_ofItems, Window.slide_ofItems]
  · rw [panic_advance, quiet]
    rfl
  · rw [diagnostics_advance, quiet]
    rfl

theorem exists_reads_behind {a : String} {us : List Token} {last : Token}
    (tokens : HasTokens a (us ++ [last])) (source : String) :
    ∃ s', Reads (ofSource (a ++ "\n" ++ source)).advance.advance us s' ∧ s'.panic = false ∧
      s'.diagnostics = [] ∧ s'.window = Window.ofItems (.quiet last ::
        (Item.group (Cursor.ofSource source).results).map
          (Item.shift (1 + a.toList.count '\n'))) := by
  obtain ⟨line, results⟩ := tokens
  have lastToken : ∀ r ∈ ((us ++ [last]).map Except.ok : List Lexed).getLast?, ∃ t, r = .ok t := by
    intro r hr
    obtain ⟨t, -, rfl⟩ := List.mem_map.mp (List.mem_of_getLast? hr)
    exact ⟨t, rfl⟩
  have results := Cursor.results_ofSource_append results lastToken source
  obtain ⟨t, rest, head⟩ : ∃ (t : Token) (rest : List Lexed),
      (Cursor.ofSource (a ++ "\n" ++ source)).results = .ok t :: rest := by
    rw [results]
    cases us with
    | nil => exact ⟨_, _, rfl⟩
    | cons u us => exact ⟨_, _, rfl⟩
  obtain ⟨window, calm, quiet⟩ := start_ofSource head
  rw [results, group_append lastToken, group_map_ok, group_map_shift, List.map_append,
    List.append_assoc] at window
  obtain ⟨s', reads, calm', window'⟩ := exists_reads_of_quiet window calm
  exact ⟨s', reads, calm', reads.diagnostics_eq.trans quiet, window'⟩

/-- **Behind valid code a source has the errors that it has if recording starts again in front of
it.** -/
theorem diagnostics_behind {a : String} {p : Program} (ok : parse a = .ok p)
    (nonempty : p.mains ≠ []) (source : String) :
    (ofSource (a ++ "\n" ++ source)).finish.2.diagnostics =
      (ofSource source).advance.advance.settle.decls.2.diagnostics.map
        (Diagnostic.shift (1 + a.toList.count '\n')) := by
  obtain ⟨ts, tokens, tree⟩ := parse_eq_ok_iff.mp ok
  obtain ⟨mains⟩ := p
  rcases List.eq_nil_or_concat ts with rfl | ⟨us, last, rfl⟩
  · cases tree
    exact absurd rfl nonempty
  rw [List.concat_eq_append] at tokens tree
  obtain ⟨s', reads, calm', quiet', window'⟩ := exists_reads_behind tokens source
  have current : s'.current = last := by
    rw [Session.current, window', Window.current_ofItems]
    rfl
  have decls := decls_of_reads_last tree rfl reads current
  obtain ⟨front, final, group, ending, others⟩ := exists_group_eq source
  obtain ⟨window, calm, quiet⟩ := advance_ofSource source
  rw [group] at window window'
  have inStep := inStep_advance ending others window window' calm calm' quiet
  rw [diagnostics_finish, decls, inStep.settle.decls_atEnding.2, quiet']
  rfl

/-! ## In front of the first declaration -/

/-- Where no main block follows it does not matter whether recording starts again at once: what
follows is skipped in any case. -/
theorem diagnostics_decls_settle (ended : s.window.Ended)
    (h : s.panic = true → s.check (.keyword .main) = false) :
    s.settle.decls.2.diagnostics = s.decls.2.diagnostics := by
  cases panic : s.panic with
  | false => rw [settle_of_calm panic]
  | true =>
    have settle {s : Session} (panic : s.panic = true) : s.settle = s.recover := by
      rw [Session.settle, if_pos panic]
    cases atEnd : s.atEnd with
    | true =>
      have resumed : s.recover = ⟨s.window, false, .recovered :: s.history⟩ := by
        rw [recover, dif_pos (by simp [atEnd])]
      have atEnd' : s.recover.atEnd = true := by
        rw [resumed]
        exact atEnd
      rw [settle panic, decls_eq, if_pos atEnd', decls_eq, if_pos atEnd, resumed]
      exact diagnostics_cons _ _ rfl _
    | false =>
      obtain ⟨front, last, window, ending, others⟩ := ended
      -- an error that is suppressed makes no difference
      have inStep : InStep (.atEnding 0 [] ending) 0 s (s.errorExpected "declaration") := by
        refine ⟨front, window, ?_, others, .inl rfl, ?_, ?_⟩
        · rw [window_errorExpected, window, map_shift_zero, ← map_shift_zero [last]]
          rfl
        · rw [panic, panic_errorExpected]
        · rw [errorExpected, errorHere, error, diagnostics_report, if_pos panic,
            map_diagnosticShift_zero]
          rfl
      have skipped := ((inStep.advance atEnd).mono (Nat.zero_le _)).recover.decls_atEnding.2
      have decl : s.decl.2 = (s.errorExpected "declaration").advance := by
        rw [Session.decl, if_neg (by simp [h panic])]
      have held : s.decl.2.panic = true := by
        rw [decl, panic_advance, panic_errorExpected]
        rfl
      have next : s.recover = s.advance.recover := by
        rw [recover, dif_neg (by simp [atEnd, h panic])]
      rw [decls_eq s, atEnd]
      simp only [Bool.false_eq_true, if_false]
      rw [settle panic, next, settle held, decl, skipped, map_diagnosticShift_zero]
      rfl

end Session

/-- The source has errors in its text, and a main block follows. -/
def LeadsWithErrors (source : String) : Prop :=
  ∃ (e : LexError) (es : List LexError) (keyword : Token) (later : List Lexed),
    (Cursor.ofSource source).results = .error e :: es.map .error ++ .ok keyword :: later ∧
      keyword.terminal = .keyword .main

theorem leadsWithErrors_of_panic {source : String}
    (held : (Session.ofSource source).advance.advance.panic = true)
    (main : (Session.ofSource source).advance.advance.check (.keyword .main) = true) :
    LeadsWithErrors source := by
  have joined := flatMap_results_ofSource source
  obtain ⟨front, last, group, -⟩ := exists_group_eq source
  obtain ⟨i, rest, items⟩ := exists_append_singleton_eq_cons front last
  obtain ⟨before, calm, -⟩ := Session.advance_ofSource source
  have window := Session.window_start source
  rw [group, items] at before window joined
  rw [Session.panic_advance, calm, before, Window.errors_ofItems] at held
  rw [Session.check_iff, Session.current, window, Window.current_ofItems] at main
  cases errors : i.errors with
  | nil =>
    rw [errors] at held
    cases held
  | cons e es =>
    refine ⟨e, es, i.token, rest.flatMap Item.results, ?_, main⟩
    rw [← joined, List.flatMap_cons, Item.results, errors]
    simp

/-- **All valid code has the same errors behind it.** They are those of the source on its own, on
the lines where they then stand, unless the source leads with errors in its text in front of a main
block: on its own it keeps back what is wrong with that block, and behind valid code it does not. -/
theorem report_behind {source : String} {report : Report} (failed : parse source = .error report) :
    ∃ behind : Report,
      (∀ (a : String) (p : Program), parse a = .ok p → p.mains ≠ [] →
        parse (a ++ "\n" ++ source) =
          .error (behind.map (Diagnostic.shift (1 + a.toList.count '\n')))) ∧
      (¬LeadsWithErrors source → behind = report) := by
  obtain ⟨diagnostics, reported⟩ := diagnostics_of_parse failed
  rw [diagnostics_finish] at diagnostics
  generalize start : (Session.ofSource source).advance.advance = s at diagnostics
  have sound : s.Sound := start ▸ (Session.sound_ofSource source).advance.advance
  have ended : s.window.Ended := start ▸ Window.ended_ofSource source
  have reported' : s.settle.decls.2.diagnostics ≠ [] := by
    intro clean
    have moves : s.Moves s.settle.decls.2 := s.moves_settle.trans (Session.moves_decls _)
    have before := moves.prefix_diagnostics
    rw [clean] at before
    have calm := sound.panic_eq_false (List.prefix_nil.mp before)
    rw [Session.settle_of_calm calm, diagnostics] at clean
    exact reported clean
  refine ⟨s.settle.decls.2.diagnostics, fun a p ok mains => ?_, fun clean => ?_⟩
  · have behind := Session.diagnostics_behind ok mains source
    rw [start] at behind
    rw [parse_eq, behind, if_neg (mt List.map_eq_nil_iff.mp reported')]
  · rw [Session.diagnostics_decls_settle ended, diagnostics]
    intro held
    subst start
    rw [← Bool.not_eq_true]
    exact fun main => clean (leadsWithErrors_of_panic held main)

/-- A main block without statements. -/
def emptyMain : String :=
  "main \x7b \x7d"

/-- A stray token, and a main block with another one. -/
def tokenFirst : String :=
  "+ main \x7b + \x7d"

theorem parse_emptyMain : parse emptyMain = .ok ⟨[⟨1, []⟩]⟩ := by
  cbv

theorem report_behind_tokenFirst :
    parse tokenFirst = .error [⟨.error, 1, "expected declaration, but got '+'"⟩,
        ⟨.error, 1, "expected statement, but got '+'"⟩] ∧ ¬LeadsWithErrors tokenFirst ∧
      parse (emptyMain ++ "\n" ++ tokenFirst) =
        .error [⟨.error, 2, "expected declaration, but got '+'"⟩,
          ⟨.error, 2, "expected statement, but got '+'"⟩] := by
  have failed : parse tokenFirst = .error [⟨.error, 1, "expected declaration, but got '+'"⟩,
      ⟨.error, 1, "expected statement, but got '+'"⟩] := by cbv
  have first : (Cursor.ofSource tokenFirst).results.head? = some (.ok ⟨.punct .plus, "+", 1⟩) := by
    cbv
  have clean : ¬LeadsWithErrors tokenFirst := by
    rintro ⟨e, es, keyword, later, results, -⟩
    rw [results] at first
    cases first
  obtain ⟨behind, all, same⟩ := report_behind failed
  have report := all emptyMain _ parse_emptyMain (List.cons_ne_nil _ _)
  rw [same clean] at report
  exact ⟨failed, clean, report⟩

/-- A numeral without digits, and a main block with another error. -/
def errorFirst : String :=
  "0x main \x7b + \x7d"

/-- The session in front of the main block. -/
def errorFirstStart : Session where
  window := Window.ofItems [.quiet ⟨.keyword .main, "main", 1⟩,
    .quiet ⟨.punct .braceOpen, "\x7b", 1⟩, .quiet ⟨.punct .plus, "+", 1⟩,
    .quiet ⟨.punct .braceClose, "\x7d", 1⟩, .quiet (Token.ending 1)]
  panic := true
  history := [.lexed ⟨.punct .braceOpen, "\x7b", 1⟩,
    .recorded ⟨.error, 1, "no digits in hexadecimal literal"⟩,
    .found ⟨.noDigits .hexadecimal, 1⟩, .lexed ⟨.keyword .main, "main", 1⟩]

theorem start_errorFirst :
    (Session.ofSource errorFirst).advance.advance = errorFirstStart := by
  have results : (Cursor.ofSource errorFirst).results = [.error ⟨.noDigits .hexadecimal, 1⟩,
      .ok ⟨.keyword .main, "main", 1⟩, .ok ⟨.punct .braceOpen, "\x7b", 1⟩,
      .ok ⟨.punct .plus, "+", 1⟩, .ok ⟨.punct .braceClose, "\x7d", 1⟩,
      .ok (Token.ending 1)] := by cbv
  rw [Session.ofSource, Window.ofSource, results]
  rfl

/-- On its own the source keeps back what is wrong with its block, behind valid code it does not. -/
theorem report_behind_errorFirst : ∃ (p : Program) (report : Report),
    parse emptyMain = .ok p ∧ p.mains ≠ [] ∧ parse errorFirst = .error report ∧
      parse (emptyMain ++ "\n" ++ errorFirst) ≠
        .error (report.map (Diagnostic.shift (1 + emptyMain.toList.count '\n'))) := by
  have alone : parse errorFirst =
      .error [⟨.error, 1, "no digits in hexadecimal literal"⟩] := by
    rw [parse_eq, diagnostics_finish, start_errorFirst]
    cbv
  have behind : parse (emptyMain ++ "\n" ++ errorFirst) =
      .error [⟨.error, 2, "no digits in hexadecimal literal"⟩,
        ⟨.error, 2, "expected statement, but got '+'"⟩] := by
    have diagnostics := Session.diagnostics_behind parse_emptyMain (List.cons_ne_nil _ _)
      errorFirst
    rw [start_errorFirst] at diagnostics
    have two : (errorFirstStart.settle.decls.2.diagnostics.map
        (Diagnostic.shift (1 + emptyMain.toList.count '\n'))) =
          [⟨.error, 2, "no digits in hexadecimal literal"⟩,
            ⟨.error, 2, "expected statement, but got '+'"⟩] := by cbv
    rw [parse_eq, diagnostics, two, if_neg (List.cons_ne_nil _ _)]
  refine ⟨_, _, parse_emptyMain, List.cons_ne_nil _ _, alone, ?_⟩
  rw [behind]
  intro same
  have length := congrArg List.length (Except.error.inj same)
  cases length

end DeoLang
