import DeoLang.Proofs.Session.Events
import DeoLang.Proofs.Session.Parse
import DeoLang.Proofs.Token.Value

/-!
# The messages of a parse

* `Message`: what can be said of a source: an error in its text, a token that was not expected, or
  an integer token without a value.
* `Event.Tells`: the diagnostic of an event, whether it is recorded or held back.
* `Window.Spelled`: the tokens of a window have the texts of their classes.
* `Session.literal_of_character`: where a character token is read as a literal, it has a value.
* `Session.Stated`: all that has been said so far; `Stated.of_deeds`.
* **`message_of_tells`**: the events of a parse tell nothing else.
-/

namespace DeoLang

/-- The messages of a parse. -/
inductive Message : String → Prop where
  | fault (f : LexFault) : Message f.message
  | expected {what : String} (t : Terminal) : Session.Asked what →
      Message ("expected " ++ what ++ ", but got " ++ t.describe)
  | numeral {lexeme : String} {e : NumeralError} : Spells .integer lexeme.toList →
      readInt lexeme = .error e → Message e.message

/-- The diagnostic is recorded or suppressed in the event. -/
def Event.Tells (e : Event) (d : Diagnostic) : Prop :=
  e = .recorded d ∨ e = .suppressed d

theorem tells_ofReport_iff {panic : Bool} {d d' : Diagnostic} :
    (Event.ofReport panic d).Tells d' ↔ d' = d := by
  cases panic <;> simp [Event.Tells, Event.ofReport, eq_comm]

theorem Session.recorded_mem_events {s : Session} {d : Diagnostic} (h : d ∈ s.diagnostics) :
    .recorded d ∈ s.events := by
  obtain ⟨e, he, same⟩ := List.mem_filterMap.mp h
  cases e with
  | recorded d' =>
    cases same
    exact he
  | lexed | found | suppressed | recovered => cases same

theorem exists_of_tells_handOver {panic : Bool} {es : List LexError} {d : Diagnostic}
    (h : ∃ e ∈ handOver panic es, e.Tells d) : ∃ e ∈ es, d = e.diagnostic := by
  induction es generalizing panic with
  | nil => simp [handOver] at h
  | cons e es ih =>
    obtain ⟨event, mem, tells⟩ := h
    rw [handOver, List.mem_cons, List.mem_cons] at mem
    rcases mem with rfl | rfl | later
    · simp [Event.Tells] at tells
    · exact ⟨e, List.mem_cons_self, tells_ofReport_iff.mp tells⟩
    · obtain ⟨e', he', same⟩ := ih ⟨event, later, tells⟩
      exact ⟨e', List.mem_cons_of_mem e he', same⟩

/-! ## Windows -/

namespace Window

/-- The tokens of a window have the texts of their classes. The end of a source has none. -/
def Spelled (w : Window) : Prop :=
  ∀ t ∈ w.tokens, t.terminal ≠ .ending → t.Spelled

theorem spelled_ofSource (source : String) : (ofSource source).Spelled := by
  intro t ht noEnd
  have start : t ≠ Token.ending 1 := by
    rintro rfl
    exact noEnd rfl
  have mem : t ∈ (Item.group (Cursor.ofSource source).results).map Item.token := by
    simpa [ofSource, tokens, start] using ht
  obtain ⟨i, hi, rfl⟩ := List.mem_map.mp mem
  refine Cursor.spelled_of_mem_results (c := Cursor.ofSource source) ?_ noEnd
  rw [← flatMap_results_ofSource]
  exact List.mem_flatMap.mpr ⟨i, hi, by simp [Item.results]⟩

theorem Spelled.slide {w : Window} (h : w.Spelled) : w.slide.Spelled := by
  obtain ⟨current, ahead, queue⟩ := w
  intro t ht noEnd
  cases queue with
  | nil =>
    have same : t = ahead.token ∨ t = Token.ending ahead.token.line := by
      simpa [Window.slide, tokens] using ht
    rcases same with rfl | rfl
    · exact h _ (by simp [tokens]) noEnd
    · exact absurd rfl noEnd
  | cons item queue =>
    exact h t (List.mem_cons_of_mem current (by simpa [Window.slide, tokens] using ht)) noEnd

end Window

namespace Session

/-! ## Sessions -/

theorem spells_current {s : Session} (h : s.window.Spelled) {t : Terminal}
    (current : s.current.terminal = t) (noEnd : t ≠ .ending) :
    Spells t s.current.lexeme.toList := by
  subst current
  exact h s.current List.mem_cons_self noEnd

/-- A character token has a value. -/
theorem literal_of_character {s : Session} (h : s.window.Spelled)
    (character : s.current.terminal = .character) : ∃ v, s.literal = (some v, s.advance) := by
  have spells := spells_current h character (by decide)
  obtain ⟨-, -, v, -, -, -, value, -⟩ := exists_charValue_eq spells
  exact ⟨v, by simp only [literal, character, value]⟩

/-- All messages so far are those of a parse, and the tokens to come have the texts of their
classes. -/
structure Stated (s : Session) : Prop where
  spelled : s.window.Spelled
  message : ∀ e ∈ s.events, ∀ d, e.Tells d → Message d.message

theorem stated_ofSource (source : String) : (ofSource source).Stated :=
  ⟨Window.spelled_ofSource source, by simp [ofSource, events]⟩

namespace Stated

variable {s s' : Session}

theorem report (h : s.Stated) {d : Diagnostic} (message : Message d.message) :
    (s.report d).Stated := by
  refine ⟨by rw [window_report]; exact h.spelled, fun e he d' tells => ?_⟩
  rw [events_report, List.mem_append, List.mem_singleton] at he
  rcases he with old | rfl
  · exact h.message e old d' tells
  · rwa [tells_ofReport_iff.mp tells]

theorem advance (h : s.Stated) : s.advance.Stated := by
  refine ⟨h.spelled.slide, fun e he d tells => ?_⟩
  rw [events_advance, List.mem_append, List.mem_append, List.mem_singleton] at he
  rcases he with old | found | rfl
  · exact h.message e old d tells
  · obtain ⟨e', -, rfl⟩ := exists_of_tells_handOver ⟨e, found, tells⟩
    exact .fault e'.fault
  · simp [Event.Tells] at tells

theorem expected (h : s.Stated) {what : String} (asked : Asked what) :
    (s.errorExpected what).Stated :=
  h.report (.expected _ asked)

theorem literal (h : s.Stated) : s.literal.2.Stated := by
  cases current : s.current.terminal with
  | integer =>
    cases read : readInt s.current.lexeme with
    | ok value => simpa only [Session.literal, current, read] using h.advance
    | error e =>
      have spells := spells_current h.spelled current (by decide)
      simp only [Session.literal, current, read]
      exact h.advance.report (.numeral spells read)
  | character =>
    obtain ⟨v, value⟩ := literal_of_character h.spelled current
    rw [value]
    exact h.advance
  | punct | identifier | keyword | ending =>
    simpa only [Session.literal, current] using h.expected .expression

theorem of_deeds (h : s.Stated) (deeds : Deeds s s') : s'.Stated := by
  induction deeds with
  | refl => exact h
  | tail _ deed ih =>
    cases deed with
    | task task =>
      cases task with
      | advance => exact ih.advance
      | expected asked => exact ih.expected asked
      | literal => exact ih.literal
    | resume =>
      refine ⟨ih.spelled, fun e he d tells => ?_⟩
      rw [events_cons, List.mem_append, List.mem_singleton] at he
      rcases he with old | rfl
      · exact ih.message e old d tells
      · simp [Event.Tells] at tells

end Stated

end Session

/-- **The messages of a parse**, recorded or held back, are those of errors in the text, of tokens
that were not expected and of integer tokens without a value. -/
theorem message_of_tells (source : String) :
    ∀ e ∈ (Session.ofSource source).finish.2.events, ∀ d, e.Tells d → Message d.message := by
  rw [Session.finish_snd]
  have start := (Session.stated_ofSource source).advance.advance
  exact (start.of_deeds (Session.deeds_decls _)).advance.message

end DeoLang
