import DeoLang.Report
import DeoLang.Token.Window

/-!
# Parsing sessions

* `Event`, `Session`: a window on the source, whether errors are held back, and what happened.
* `Session.report`: the first error is recorded, those after it are suppressed until `recover`.
* `Session.advance`: on to the next token, with the errors in front of it reported.
* `Session.expect`: the current token, which has to be of a given class.
* `pending_advance_lt`: advancing uses up a token.
-/

namespace DeoLang

/-- Something that happens while a source is parsed: a token comes into view, an error in the text
is found, a diagnostic is recorded or suppressed, and recording starts again. -/
inductive Event where
  | lexed (t : Token)
  | found (e : LexError)
  | recorded (d : Diagnostic)
  | suppressed (d : Diagnostic)
  | recovered
  deriving Repr, DecidableEq

/-- The diagnostic that an event adds to the report. -/
def Event.diagnostic? : Event → Option Diagnostic
  | recorded d => some d
  | _ => none

/-- The state of parsing. The history has the newest event first. -/
structure Session where
  window : Window
  panic : Bool
  history : List Event
  deriving Repr, DecidableEq

/-- The diagnostic for an error in the text of a token. -/
def LexError.diagnostic (e : LexError) : Diagnostic :=
  ⟨.error, e.line, e.fault.message⟩

namespace Session

/-- A session in front of a source. -/
def ofSource (source : String) : Session :=
  ⟨Window.ofSource source, false, []⟩

/-- The current token. -/
def current (s : Session) : Token :=
  s.window.current

/-- Whether the current token is a `t`. -/
def check (s : Session) (t : Terminal) : Bool :=
  s.window.check t

/-- Whether the end of the source is current. -/
def atEnd (s : Session) : Bool :=
  s.check .ending

/-- The diagnostics recorded so far. -/
def diagnostics (s : Session) : Report :=
  s.history.reverse.filterMap Event.diagnostic?

/-- How many tokens of the source are current or still to come. -/
def pending (s : Session) : Nat :=
  s.window.pending

/-- Records a diagnostic and holds back those that follow; suppresses it if it is itself held
back. -/
def report (s : Session) (d : Diagnostic) : Session :=
  if s.panic then { s with history := .suppressed d :: s.history }
  else { s with panic := true, history := .recorded d :: s.history }

/-- Reports an error at a line. -/
def error (s : Session) (line : Nat) (message : String) : Session :=
  s.report ⟨.error, line, message⟩

/-- Reports an error at the current token. -/
def errorHere (s : Session) (message : String) : Session :=
  s.error s.current.line message

/-- Reports that the current token is not what was expected. -/
def errorExpected (s : Session) (expected : String) : Session :=
  s.errorHere ("expected " ++ expected ++ ", but got " ++ s.current.terminal.describe)

/-- Reports an error in the text of the source. -/
def find (s : Session) (e : LexError) : Session :=
  { s with history := .found e :: s.history }.report e.diagnostic

/-- Goes on to the next token, and reports the errors in front of it. -/
def advance (s : Session) : Session :=
  let reported := s.window.errors.foldl find s
  { reported with
    window := s.window.slide
    history := .lexed s.window.slide.ahead.token :: reported.history }

/-- Goes on if the current token is a `t`, and tells whether it was one. -/
def accept (s : Session) (t : Terminal) : Bool × Session :=
  if s.check t then (true, s.advance) else (false, s)

/-- The current token, which has to be a `t`. Another token is reported and stays. -/
def expect (s : Session) (t : Terminal) : Option Token × Session :=
  if s.check t then (some s.current, s.advance) else (none, s.errorExpected t.describe)

@[simp] theorem window_report (s : Session) (d : Diagnostic) :
    (s.report d).window = s.window := by
  unfold report
  split <;> rfl

@[simp] theorem window_errorExpected (s : Session) (expected : String) :
    (s.errorExpected expected).window = s.window :=
  window_report _ _

@[simp] theorem pending_report (s : Session) (d : Diagnostic) :
    (s.report d).pending = s.pending := by
  simp [pending]

@[simp] theorem pending_error (s : Session) (line : Nat) (message : String) :
    (s.error line message).pending = s.pending :=
  pending_report _ _

@[simp] theorem pending_errorExpected (s : Session) (expected : String) :
    (s.errorExpected expected).pending = s.pending := by
  simp [pending]

@[simp] theorem window_advance (s : Session) : s.advance.window = s.window.slide := rfl

theorem pending_advance_le (s : Session) : s.advance.pending ≤ s.pending :=
  s.window.pending_slide_le

theorem pending_advance_lt {s : Session} (h : s.atEnd = false) :
    s.advance.pending < s.pending :=
  Window.pending_slide_lt h

theorem atEnd_of_check {s : Session} {t : Terminal} (h : s.check t = true) (ne : t ≠ .ending) :
    s.atEnd = false := by
  simp only [atEnd, check, Window.check, decide_eq_true_eq] at *
  simp [h, ne]

theorem pending_expect_le (s : Session) (t : Terminal) : (s.expect t).2.pending ≤ s.pending := by
  unfold expect
  split
  · exact s.pending_advance_le
  · simp

/-- Skips tokens up to a main block or the end, where diagnostics are recorded again. -/
def recover (s : Session) : Session :=
  if _h : s.atEnd || s.check (.keyword .main) then
    { s with panic := false, history := .recovered :: s.history }
  else s.advance.recover
termination_by s.pending
decreasing_by
  simp only [Bool.or_eq_true, not_or, Bool.not_eq_true] at _h
  exact pending_advance_lt _h.1

theorem pending_recover_le (s : Session) : s.recover.pending ≤ s.pending := by
  fun_induction recover s with
  | case1 => exact Nat.le_refl _
  | case2 s _ ih => exact Nat.le_trans ih s.pending_advance_le

end Session

end DeoLang
