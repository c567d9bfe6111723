import Mathlib.Logic.Function.Iterate
import Mathlib.Tactic.Set
import DeoLang.Log
import DeoLang.Proofs.Session.Events
import DeoLang.Proofs.Session.Parse

/-!
# Reading a source once

* `Window.passed`: the tokens that a window goes over; `Window.passed_queue`.
* `Session.advances`: how often a session has advanced. `Paced` says that each advance has used up
  a token; `Deeds.paced`.
* `Session.found`: the errors that were handed over; `Acts.found_append_coming`.
* `Answered`: each error that is found is reported at once; `Acts.answered`.
* **`finish_reads_once`**: a session goes once over each token of its source and reports each error
  in the text once.
-/

namespace DeoLang

namespace Window

/-! ## Tokens that a window goes over -/

/-- The tokens that are current one after the other while a window slides. -/
def passed : Nat → Window → List Token
  | 0, _ => []
  | n + 1, w => w.current :: passed n w.slide

/-- Behind its last item a window shows the end, and has gone once over every token. -/
theorem passed_queue (c : Token) (a last : Item) (queue : List Item) :
    passed (queue.length + 3) ⟨c, a, queue ++ [last]⟩ =
        c :: a.token :: (queue.map Item.token ++ [last.token]) ∧
      slide^[queue.length + 3] ⟨c, a, queue ++ [last]⟩ =
        ⟨Token.ending last.token.line, ⟨[], Token.ending last.token.line⟩, []⟩ := by
  induction queue generalizing c a with
  | nil => exact ⟨rfl, rfl⟩
  | cons i queue ih =>
    obtain ⟨passed, slid⟩ := ih a.token i
    exact ⟨congrArg (c :: ·) passed, slid⟩

/-- The errors that are still to be handed over. -/
def coming (w : Window) : List LexError :=
  w.items.flatMap Item.errors

theorem errors_append_coming (w : Window) : w.errors ++ w.slide.coming = w.coming := by
  obtain ⟨c, a, queue⟩ := w
  cases queue <;> simp [errors, coming, slide, items]

end Window

theorem tokensOf_results_eq (source : String) :
    tokensOf (Cursor.ofSource source).results =
        (Item.group (Cursor.ofSource source).results).map Item.token ∧
      errorsOf (Cursor.ofSource source).results =
        (Item.group (Cursor.ofSource source).results).flatMap Item.errors := by
  rw [← tokensOf_flatMap_results, ← errorsOf_flatMap_results, flatMap_results_ofSource]
  exact ⟨rfl, rfl⟩

theorem exists_items_eq (source : String) : ∃ (front : List Item) (last : Item) (line : Nat),
    Item.group (Cursor.ofSource source).results = front ++ [last] ∧
      last.token = Token.ending line ∧ ∀ i ∈ front, i.token.terminal ≠ .ending := by
  obtain ⟨rs, line, results, -⟩ := exists_results_eq source
  obtain ⟨front, last, items, -, others⟩ := exists_group_eq source
  have tokens := (tokensOf_results_eq source).1
  have all : tokensOf (rs ++ [.ok (Token.ending line)]) = tokensOf rs ++ [Token.ending line] := by
    rw [tokensOf_append]
    rfl
  rw [items, results, all, List.map_append] at tokens
  exact ⟨front, last, line, items,
    (List.singleton_inj.mp (List.append_inj' tokens rfl).2).symm, others⟩

/-! ## Advances -/

/-- Whether a token came into view. -/
def Event.isLexed : Event → Bool
  | lexed _ => true
  | _ => false

/-- The error that was found. -/
def Event.found? : Event → Option LexError
  | found e => some e
  | _ => none

theorem isLexed_ofReport (panic : Bool) (d : Diagnostic) :
    (Event.ofReport panic d).isLexed = false := by
  cases panic <;> rfl

theorem filterMap_found_handOver (panic : Bool) (es : List LexError) :
    (handOver panic es).filterMap Event.found? = es := by
  induction es generalizing panic with
  | nil => rfl
  | cons e es ih =>
    have first : (Event.found e).found? = some e := rfl
    have second : (Event.ofReport panic e.diagnostic).found? = none := by cases panic <;> rfl
    rw [handOver, List.filterMap_cons_some first, List.filterMap_cons_none second, ih]

namespace Session

/-- How often the session has advanced: each advance brings one token into view. -/
def advances (s : Session) : Nat :=
  s.events.countP Event.isLexed

/-- The errors in the text that were handed over, in the order in which they were. -/
def found (s : Session) : List LexError :=
  s.events.filterMap Event.found?

theorem advances_advance (s : Session) : s.advance.advances = s.advances + 1 :=
  countP_events_advance (fun _ => rfl) isLexed_ofReport s

theorem advances_report (s : Session) (d : Diagnostic) : (s.report d).advances = s.advances :=
  countP_events_report isLexed_ofReport s d

theorem advances_resume (s : Session) :
    (mk s.window false (.recovered :: s.history)).advances = s.advances := by
  rw [advances, events_cons, List.countP_append]
  rfl

theorem found_advance (s : Session) : s.advance.found = s.found ++ s.window.errors := by
  rw [found, events_advance, List.filterMap_append, List.filterMap_append,
    filterMap_found_handOver]
  simp [found, Event.found?]

theorem found_report (s : Session) (d : Diagnostic) : (s.report d).found = s.found := by
  rw [found, events_report, List.filterMap_append]
  cases s.panic <;> simp [found, Event.ofReport, Event.found?]

theorem found_resume (s : Session) :
    (mk s.window false (.recovered :: s.history)).found = s.found := by
  rw [found, events_cons, List.filterMap_append]
  exact List.append_nil _

variable {s s' s'' : Session}

/-- **Each error is handed over once**: those handed over and those to come stay the same. -/
theorem Acts.found_append_coming (h : Acts s s') :
    s'.found ++ s'.window.coming = s.found ++ s.window.coming := by
  induction h with
  | refl => rfl
  | tail _ act ih =>
    rw [← ih]
    cases act with
    | advance =>
      rw [found_advance, window_advance, List.append_assoc, Window.errors_append_coming]
    | error line message => rw [error, found_report, window_report]
    | resume => rw [found_resume]

theorem Acts.exists_iterate (h : Acts s s') : ∃ n, s'.advances = s.advances + n ∧
    s'.window = Window.slide^[n] s.window := by
  induction h with
  | refl => exact ⟨0, rfl, rfl⟩
  | tail _ act ih =>
    obtain ⟨n, count, window⟩ := ih
    cases act with
    | advance =>
      refine ⟨n + 1, by rw [advances_advance, count, Nat.add_assoc], ?_⟩
      rw [window_advance, window, Function.iterate_succ_apply']
    | error line message =>
      exact ⟨n, by rw [error, advances_report, count], by rw [error, window_report, window]⟩
    | resume => exact ⟨n, by rw [advances_resume, count], window⟩

/-! ## Each advance uses up a token -/

/-- Each advance on the way from `s` to `s'` has used up a token. -/
def Paced (s s' : Session) : Prop :=
  s'.advances + s'.pending = s.advances + s.pending

theorem Paced.refl (s : Session) : Paced s s := rfl

theorem Paced.trans (h : Paced s s') (h' : Paced s' s'') : Paced s s'' :=
  Eq.trans h' h

theorem paced_advance (h : s.atEnd = false) : Paced s s.advance := by
  have used := s.window.pending_slide
  rw [show s.window.check .ending = false from h] at used
  rw [Paced, advances_advance, pending, window_advance, pending, ← used]
  simp only [Bool.false_eq_true, if_false]
  omega

theorem paced_report (s : Session) (d : Diagnostic) : Paced s (s.report d) := by
  rw [Paced, advances_report, pending_report]

theorem paced_literal (s : Session) : Paced s s.literal.2 := by
  unfold literal
  split
  · next integer =>
    have advance : Paced s s.advance := paced_advance (atEnd_eq_false_iff.mpr (by simp [integer]))
    split
    · exact advance
    · exact advance.trans (paced_report _ _)
  · next character =>
    have advance : Paced s s.advance := paced_advance (atEnd_eq_false_iff.mpr (by simp [character]))
    split
    · exact advance
    · exact advance.trans (paced_report _ _)
  · exact s.paced_report _

theorem Deeds.paced (h : Deeds s s') : Paced s s' := by
  induction h with
  | refl => exact .refl s
  | tail _ deed ih =>
    refine ih.trans ?_
    cases deed with
    | task task =>
      cases task with
      | advance go => exact paced_advance go
      | expected => exact paced_report _ _
      | literal => exact paced_literal _
    | resume =>
      rw [Paced, advances_resume]
      rfl

/-- **Declarations advance once for each token.** -/
theorem paced_decls (s : Session) : Paced s s.decls.2 :=
  s.deeds_decls.paced

end Session

/-! ## Errors that are found are reported -/

/-- Each error that is found is reported before anything else happens. -/
def Answered (es : List Event) : Prop :=
  ∀ before e after, es = before ++ .found e :: after →
    ∃ panic later, after = .ofReport panic e.diagnostic :: later

theorem Answered.append {a b : List Event} (ha : Answered a) (hb : Answered b) :
    Answered (a ++ b) := by
  intro before e after whole
  rcases List.append_eq_append_iff.mp whole with ⟨rest, rfl, inside⟩ | ⟨rest, inside, split⟩
  · exact hb rest e after inside
  · cases rest with
    | nil => exact hb [] e after split.symm
    | cons e' rest =>
      obtain ⟨rfl, rfl⟩ := List.cons.inj split
      obtain ⟨panic, later, rfl⟩ := ha before e rest inside
      exact ⟨panic, later ++ b, rfl⟩

theorem answered_nil : Answered [] := by
  intro before e after whole
  cases before <;> cases whole

theorem answered_singleton {e : Event} (h : e.found? = none) : Answered [e] := by
  intro before e' after whole
  cases before with
  | nil => cases whole; cases h
  | cons _ before => cases before <;> cases whole

theorem answered_ofReport (panic : Bool) (d : Diagnostic) : Answered [.ofReport panic d] :=
  answered_singleton (by cases panic <;> rfl)

theorem answered_handOver (panic : Bool) (es : List LexError) : Answered (handOver panic es) := by
  induction es generalizing panic with
  | nil => exact answered_nil
  | cons e es ih =>
    have one : Answered [.found e, .ofReport panic e.diagnostic] := by
      intro before e' after whole
      cases before with
      | nil => cases whole; exact ⟨panic, [], rfl⟩
      | cons _ before =>
        exact answered_ofReport panic e.diagnostic before e' after (List.cons.inj whole).2
    exact one.append (ih true)

namespace Session

theorem Act.answered {s s' : Session} (h : Act s s') (before : Answered s.events) :
    Answered s'.events := by
  cases h with
  | advance =>
    rw [events_advance]
    exact before.append ((answered_handOver _ _).append (answered_singleton rfl))
  | error line message =>
    rw [Session.error, events_report]
    exact before.append (answered_ofReport _ _)
  | resume =>
    rw [events_cons]
    exact before.append (answered_singleton rfl)

theorem Acts.answered {s s' : Session} (h : Acts s s') (before : Answered s.events) :
    Answered s'.events := by
  induction h with
  | refl => exact before
  | tail _ act ih => exact act.answered ih

/-- An error that is found ends up among the diagnostics, or in the log as suppressed. -/
theorem recorded_or_suppressed {s : Session} (h : Answered s.events) {e : LexError}
    (found : e ∈ s.found) : e.diagnostic ∈ s.diagnostics ∨
      ⟨.debug, "suppressed: " ++ e.diagnostic.render⟩ ∈ s.log := by
  obtain ⟨event, mem, eq⟩ := List.mem_filterMap.mp found
  obtain rfl : event = .found e := by
    cases event with
    | found e' => cases eq; rfl
    | lexed | recorded | suppressed | recovered => cases eq
  obtain ⟨before, after, whole⟩ := List.append_of_mem mem
  obtain ⟨panic, later, rfl⟩ := h before e after whole
  have answer : Event.ofReport panic e.diagnostic ∈ s.events := by
    rw [whole]
    simp
  cases panic with
  | false => exact .inl (List.mem_filterMap.mpr ⟨_, answer, rfl⟩)
  | true => exact .inr (List.mem_filterMap.mpr ⟨_, answer, rfl⟩)

end Session

/-! ## The whole source -/

namespace Window

theorem pending_ofItems (front : List Item) {last : Item}
    (ending : last.token.terminal = .ending) (others : ∀ i ∈ front, i.token.terminal ≠ .ending) :
    (ofItems (front ++ [last])).pending = front.length := by
  have all : front.countP (fun i => i.token.terminal ≠ .ending) = front.length :=
    List.countP_eq_length.mpr fun i hi => decide_eq_true (others i hi)
  obtain ⟨i, rest, shape⟩ := exists_append_singleton_eq_cons front last
  have tokens : (ofItems (i :: rest)).pending =
      (i :: rest).countP fun i => i.token.terminal ≠ .ending := by
    cases rest <;>
      simp [ofItems, pending, Window.tokens, List.countP_cons, List.countP_map, Token.ending,
        Function.comp_def]
  rw [shape, tokens, ← shape, List.countP_append, all]
  simp [ending]

theorem Ended.pending_of_check {w : Window} (h : w.Ended) (atEnd : w.check .ending = true) :
    w.pending = 0 := by
  obtain ⟨last, rfl, ending⟩ := h.exists_eq_of_check atEnd
  exact pending_ofItems [] ending (by simp)

end Window

namespace Session

/-- The session `s` has gone once over the tokens `ts` and over the end of the source, and has
handed over each of the errors in the text once. -/
structure ReadOnce (source : String) (ts : List Token) (last : Nat) (s : Session) : Prop where
  tokens : tokensOf (Cursor.ofSource source).results = ts ++ [Token.ending last]
  others : ∀ t ∈ ts, t.terminal ≠ .ending
  /-- Two advances come before the first token, and one goes over the end. -/
  advances : s.advances = ts.length + 3
  slides : s.window = Window.slide^[s.advances] (Window.ofSource source)
  passed : Window.passed s.advances (Window.ofSource source) =
    Token.ending 1 :: Token.ending 1 :: (ts ++ [Token.ending last])
  current : s.current = Token.ending last
  found : s.found = errorsOf (Cursor.ofSource source).results
  answered : Answered s.events
  reported : ∀ e ∈ errorsOf (Cursor.ofSource source).results, e.diagnostic ∈ s.diagnostics ∨
    ⟨.debug, "suppressed: " ++ e.diagnostic.render⟩ ∈ s.log

/-- The declarations of a source use up all of its tokens. -/
theorem advances_finished {source : String} {front : List Item} {last : Item}
    (items : Item.group (Cursor.ofSource source).results = front ++ [last])
    (ending : last.token.terminal = .ending)
    (others : ∀ i ∈ front, i.token.terminal ≠ .ending) :
    (ofSource source).finished.advances = front.length + 3 := by
  set first := (ofSource source).advance.advance with hfirst
  have ended : first.decls.2.window.Ended :=
    Moves.window_slide (P := Window.Ended) (fun _ h => h.slide) (moves_decls _)
      (Window.ended_ofSource source)
  have finish : first.decls.2.pending = 0 := ended.pending_of_check (atEnd_decls _)
  have start : first.pending = front.length := by
    rw [pending, hfirst, window_start, items, Window.pending_ofItems front ending others]
  have two : first.advances = 2 := by
    rw [hfirst, advances_advance, advances_advance]
    rfl
  have paced := first.paced_decls
  rw [Paced, finish, start, two] at paced
  change first.decls.2.advance.advances = _
  rw [advances_advance]
  omega

end Session

/-- **Parsing goes once over each token.** Whether or not a source is valid, its session ends after
two advances to the first token, one for each token and one for the end, and every error in its
text is handed over once, in order, to be recorded or suppressed. -/
theorem finish_reads_once (source : String) :
    ∃ ts last, (Session.ofSource source).finish.2.ReadOnce source ts last := by
  obtain ⟨front, last, line, items, ending, others⟩ := exists_items_eq source
  obtain ⟨tokens, errors⟩ := tokensOf_results_eq source
  have acts := (Session.ofSource source).moves_finished.acts
  have answered := acts.answered answered_nil
  have advances := Session.advances_finished items (by rw [ending]; rfl) others
  obtain ⟨n, count, slides⟩ := acts.exists_iterate
  obtain rfl : n = front.length + 3 := (Nat.zero_add n).symm.trans (count.symm.trans advances)
  obtain ⟨passed, behind⟩ := Window.passed_queue (Token.ending 1) ⟨[], Token.ending 1⟩ last front
  rw [← items, ending] at passed behind
  have window := slides.trans behind
  have found := acts.found_append_coming
  rw [window] at found
  have all : (Session.ofSource source).finished.found =
      errorsOf (Cursor.ofSource source).results := by
    rw [errors]
    exact (List.append_nil _).symm.trans found
  refine ⟨front.map Item.token, line, ?_⟩
  rw [Session.finish_snd]
  exact {
    tokens := by rw [tokens, items, List.map_append, List.map_singleton, ending]
    others := List.forall_mem_map.mpr others
    advances := by rw [advances, List.length_map]
    slides := by rw [advances, slides]; rfl
    passed := by rw [advances]; exact passed
    current := congrArg Window.current window
    found := all
    answered := answered
    reported := fun e he => Session.recorded_or_suppressed answered (all ▸ he) }

end DeoLang
