import DeoLang.Proofs.Session.Move

/-!
# What happens in a session

* `Session.events`: what has happened so far, oldest first.
* `Act`, `Acts`: advancing, reporting an error at any line and starting to record again;
  `Moves.acts`.
* `handOver`: what happens when the errors in front of a token are reported; `events_advance`.
* `Event.Fits`, `Orderly`: a diagnostic is recorded when errors are not held back and suppressed
  when they are. `heldBehind` follows events and tells when that is.
* **`Acts.exists_events`**: whatever a session does is added to its events in this order.
* `Orderly.length_le`: up to the next restart there is room for one diagnostic.
-/

namespace DeoLang

/-- What becomes of a diagnostic: it is recorded, or suppressed if errors are held back. -/
def Event.ofReport (panic : Bool) (d : Diagnostic) : Event :=
  if panic then .suppressed d else .recorded d

/-- What happens when errors in the text are reported one after the other. -/
def handOver : Bool → List LexError → List Event
  | _, [] => []
  | panic, e :: es => .found e :: .ofReport panic e.diagnostic :: handOver true es

/-- The diagnostics that events add to the report. -/
def reported (es : List Event) : Report :=
  es.filterMap Event.diagnostic?

section

variable (es : List Event)

@[simp] theorem reported_nil : reported [] = [] := rfl

@[simp] theorem reported_recorded (d : Diagnostic) :
    reported (.recorded d :: es) = d :: reported es := rfl

@[simp] theorem reported_suppressed (d : Diagnostic) :
    reported (.suppressed d :: es) = reported es := rfl

@[simp] theorem reported_lexed (t : Token) : reported (.lexed t :: es) = reported es := rfl

@[simp] theorem reported_found (e : LexError) : reported (.found e :: es) = reported es := rfl

@[simp] theorem reported_recovered : reported (.recovered :: es) = reported es := rfl

theorem reported_append (es' : List Event) :
    reported (es ++ es') = reported es ++ reported es' :=
  List.filterMap_append

end

namespace Session

/-- What has happened so far, oldest first. -/
def events (s : Session) : List Event :=
  s.history.reverse

theorem diagnostics_eq_reported (s : Session) : s.diagnostics = reported s.events := rfl

theorem events_cons (w : Window) (panic : Bool) (e : Event) (history : List Event) :
    (mk w panic (e :: history)).events = (mk w panic history).events ++ [e] :=
  List.reverse_cons

theorem events_report (s : Session) (d : Diagnostic) :
    (s.report d).events = s.events ++ [.ofReport s.panic d] := by
  unfold report Event.ofReport
  split <;> exact events_cons _ _ _ _

theorem events_find (s : Session) (e : LexError) :
    (s.find e).events = s.events ++ [.found e, .ofReport s.panic e.diagnostic] := by
  rw [find, events_report, events_cons, List.append_assoc]
  rfl

theorem events_foldl_find (es : List LexError) (s : Session) :
    (es.foldl find s).events = s.events ++ handOver s.panic es := by
  induction es generalizing s with
  | nil => simp [handOver]
  | cons e es ih => rw [List.foldl_cons, ih, events_find, panic_find, handOver]; simp

/-- An advance reports the errors in front of a token and brings one more token into view. -/
theorem events_advance (s : Session) : s.advance.events =
    s.events ++ (handOver s.panic s.window.errors ++ [.lexed s.window.slide.ahead.token]) := by
  rw [← List.append_assoc, ← events_foldl_find]
  exact events_cons _ _ _ _

end Session

section

variable {f : Event → Bool} (found : ∀ e, f (.found e) = false)
  (report : ∀ panic d, f (.ofReport panic d) = false)

include report

/-- Reports do not count for what is not one. -/
theorem countP_events_report (s : Session) (d : Diagnostic) :
    (s.report d).events.countP f = s.events.countP f := by
  rw [Session.events_report, List.countP_append, List.countP_singleton, report]
  simp

include found

theorem countP_handOver (panic : Bool) (es : List LexError) :
    (handOver panic es).countP f = 0 := by
  induction es generalizing panic with
  | nil => rfl
  | cons e es ih =>
    rw [handOver, List.countP_cons_of_neg (by simp [found]),
      List.countP_cons_of_neg (by simp [report]), ih]

theorem countP_events_advance (s : Session) : s.advance.events.countP f =
    s.events.countP f + (f (.lexed s.window.slide.ahead.token)).toNat := by
  rw [Session.events_advance, List.countP_append, List.countP_append,
    countP_handOver found report, List.countP_singleton, Nat.zero_add]
  cases f (.lexed s.window.slide.ahead.token) <;> rfl

end

namespace Session

/-! ## Acts -/

/-- One act of a session. An error can be reported at any line. -/
inductive Act : Session → Session → Prop where
  | advance (s : Session) : Act s s.advance
  | error (s : Session) (line : Nat) (message : String) : Act s (s.error line message)
  | resume (s : Session) : Act s { s with panic := false, history := .recovered :: s.history }

/-- Acts one after the other. -/
abbrev Acts : Session → Session → Prop :=
  Relation.ReflTransGen Act

theorem Work.acts {s s' : Session} (h : Work s s') : Acts s s' := by
  cases h with
  | advance => exact .single (.advance s)
  | error message => exact .single (.error s _ message)
  | value message => exact .tail (.single (.advance s)) (.error _ _ message)

theorem Move.acts {s s' : Session} (h : Move s s') : Acts s s' := by
  cases h with
  | work work => exact work.acts
  | resume => exact .single (.resume s)

theorem Moves.acts {s s' : Session} (h : Moves s s') : Acts s s' := by
  induction h with
  | refl => exact .refl
  | tail _ move ih => exact ih.trans move.acts

end Session

/-! ## Order -/

/-- Whether errors are held back behind an event. -/
def Event.held (panic : Bool) : Event → Bool
  | .recorded _ => true
  | .recovered => false
  | _ => panic

/-- Whether errors are held back behind events. -/
def heldBehind (panic : Bool) (es : List Event) : Bool :=
  es.foldl Event.held panic

/-- What can happen while errors are held back, or are not. Only errors are reported. -/
def Event.Fits (panic : Bool) : Event → Prop
  | .recorded d => panic = false ∧ d.severity = .error
  | .suppressed d => panic = true ∧ d.severity = .error
  | _ => True

/-- Events that can happen one after the other. -/
def Orderly : Bool → List Event → Prop
  | _, [] => True
  | panic, e :: es => e.Fits panic ∧ Orderly (e.held panic) es

@[simp] theorem heldBehind_nil (panic : Bool) : heldBehind panic [] = panic := rfl

@[simp] theorem heldBehind_cons (panic : Bool) (e : Event) (es : List Event) :
    heldBehind panic (e :: es) = heldBehind (e.held panic) es := rfl

theorem heldBehind_append (panic : Bool) (a b : List Event) :
    heldBehind panic (a ++ b) = heldBehind (heldBehind panic a) b :=
  List.foldl_append

theorem orderly_append {panic : Bool} {a b : List Event} :
    Orderly panic (a ++ b) ↔ Orderly panic a ∧ Orderly (heldBehind panic a) b := by
  induction a generalizing panic with
  | nil => simp [Orderly]
  | cons e a ih => simp only [List.cons_append, Orderly, ih, heldBehind_cons, and_assoc]

theorem held_ofReport (panic : Bool) (d : Diagnostic) :
    (Event.ofReport panic d).held panic = true := by
  cases panic <;> rfl

theorem fits_ofReport {panic : Bool} {d : Diagnostic} (error : d.severity = .error) :
    (Event.ofReport panic d).Fits panic := by
  cases panic <;> exact ⟨rfl, error⟩

theorem orderly_handOver (panic : Bool) (es : List LexError) :
    Orderly panic (handOver panic es) ∧
      heldBehind panic (handOver panic es) = (panic || !es.isEmpty) := by
  induction es generalizing panic with
  | nil => simp [handOver, Orderly]
  | cons e es ih =>
    obtain ⟨orderly, held⟩ := ih true
    have behind := held_ofReport panic e.diagnostic
    refine ⟨⟨trivial, fits_ofReport rfl, ?_⟩, ?_⟩
    · change Orderly ((Event.ofReport panic e.diagnostic).held panic) (handOver true es)
      rwa [behind]
    · change heldBehind ((Event.ofReport panic e.diagnostic).held panic) (handOver true es) = _
      rw [behind, held]
      simp

namespace Session

variable {s s' : Session}

theorem Act.exists_events (h : Act s s') : ∃ es, s'.events = s.events ++ es ∧
    Orderly s.panic es ∧ s'.panic = heldBehind s.panic es := by
  cases h with
  | advance =>
    obtain ⟨orderly, held⟩ := orderly_handOver s.panic s.window.errors
    refine ⟨_, s.events_advance, orderly_append.mpr ⟨orderly, trivial, trivial⟩, ?_⟩
    rw [panic_advance, heldBehind_append, held]
    rfl
  | error line message =>
    refine ⟨_, s.events_report _, ⟨fits_ofReport rfl, trivial⟩, ?_⟩
    rw [panic_error, heldBehind_cons, held_ofReport, heldBehind_nil]
  | resume => exact ⟨[.recovered], events_cons _ _ _ _, ⟨trivial, trivial⟩, rfl⟩

/-- **Whatever a session does is added to its events.** What it reports is recorded or suppressed
by what has happened before. -/
theorem Acts.exists_events (h : Acts s s') : ∃ es, s'.events = s.events ++ es ∧
    Orderly s.panic es ∧ s'.panic = heldBehind s.panic es := by
  induction h with
  | refl => exact ⟨[], by simp, trivial, rfl⟩
  | tail _ act ih =>
    obtain ⟨a, events, orderly, held⟩ := ih
    obtain ⟨b, events', orderly', held'⟩ := act.exists_events
    rw [held] at orderly' held'
    exact ⟨a ++ b, by rw [events', events, List.append_assoc],
      orderly_append.mpr ⟨orderly, orderly'⟩, by rw [held', heldBehind_append]⟩

end Session

/-! ## Counting -/

/-- Up to the next restart there is room for one diagnostic, unless errors are held back. -/
theorem Orderly.length_le {panic : Bool} {es : List Event} (h : Orderly panic es) :
    (reported es).length + (!heldBehind panic es).toNat ≤
      es.count .recovered + (!panic).toNat := by
  induction es generalizing panic with
  | nil => simp
  | cons e es ih =>
    obtain ⟨fits, later⟩ := h
    have le := ih later
    cases e with
    | recorded d =>
      obtain ⟨rfl, -⟩ := fits
      have same : (Event.recorded d :: es).count .recovered = es.count .recovered :=
        List.count_cons_of_ne (by simp)
      simp only [Event.held, Bool.not_true, Bool.toNat_false] at le
      simp only [reported_recorded, List.length_cons, heldBehind_cons, Event.held, same,
        Bool.not_false, Bool.toNat_true]
      omega
    | recovered =>
      simp only [Event.held, Bool.not_false, Bool.toNat_true] at le
      simp only [reported_recovered, heldBehind_cons, Event.held, List.count_cons_self]
      omega
    | lexed | found | suppressed => simpa [Event.held] using le

/-- Errors are held back only behind one that was recorded. -/
theorem exists_reported_of_heldBehind {panic : Bool} {es : List Event}
    (h : heldBehind panic es = true) : panic = true ∨ reported es ≠ [] := by
  induction es generalizing panic with
  | nil => exact .inl h
  | cons e es ih =>
    cases e with
    | recorded d => exact .inr (by simp)
    | recovered => exact .inr ((ih h).resolve_left Bool.false_ne_true)
    | lexed | found | suppressed => exact ih h

theorem severity_of_orderly {panic : Bool} {es : List Event} (h : Orderly panic es) :
    ∀ d ∈ reported es, d.severity = .error := by
  induction es generalizing panic with
  | nil => simp
  | cons e es ih =>
    obtain ⟨fits, later⟩ := h
    cases e with
    | recorded d =>
      rw [reported_recorded]
      exact List.forall_mem_cons.mpr ⟨fits.2, ih later⟩
    | lexed | found | suppressed | recovered => exact ih later

end DeoLang
