import DeoLang.Token.Cursor

/-!
# The token window

* `Item`: a token with the errors found in front of it.
* `Window`: the current token, one item of look ahead and the items after it.
* `Window.slide`: the window one token further on.
* `pending_slide`: sliding uses up the current token, unless it stands for the end.

A window starts with tokens for the end in both places, so it shows the first token of its source
after two slides. The errors in front of a token are handed over by the slide that makes the token
current.
-/

namespace DeoLang

/-- A token and the errors found in front of it. -/
structure Item where
  errors : List LexError
  token : Token
  deriving Repr, DecidableEq

namespace Item

/-- Joins each token with the errors in front of it. The items in `before` and the errors are
given newest first. -/
def groupAfter (before : List Item) (errors : List LexError) : List Lexed → List Item
  | [] => before.reverse
  | .error e :: rest => groupAfter before (e :: errors) rest
  | .ok t :: rest => groupAfter (⟨errors.reverse, t⟩ :: before) [] rest

/-- Joins each token with the errors in front of it. -/
def group (results : List Lexed) : List Item :=
  groupAfter [] [] results

theorem groupAfter_eq_append (before : List Item) (errors : List LexError) (results : List Lexed) :
    groupAfter before errors results = before.reverse ++ groupAfter [] errors results := by
  induction results generalizing before errors with
  | nil => simp [groupAfter]
  | cons r rest ih =>
    cases r with
    | error e => exact ih before (e :: errors)
    | ok t =>
      simp only [groupAfter]
      rw [ih, ih [_]]
      simp

end Item

/-- The token that is looked at and those that follow. -/
structure Window where
  current : Token
  ahead : Item
  queue : List Item
  deriving Repr, DecidableEq

namespace Window

/-- The window in front of the tokens of a source. -/
def ofSource (source : String) : Window :=
  ⟨Token.ending 1, ⟨[], Token.ending 1⟩, Item.group (Cursor.ofSource source).results⟩

/-- The window one token further on. Behind the last item the end repeats. -/
def slide (w : Window) : Window :=
  match w.queue with
  | [] => ⟨w.ahead.token, ⟨[], Token.ending w.ahead.token.line⟩, []⟩
  | item :: queue => ⟨w.ahead.token, item, queue⟩

/-- The errors that the next slide hands over. -/
def errors (w : Window) : List LexError :=
  w.ahead.errors

/-- Whether the current token is a `t`. -/
def check (w : Window) (t : Terminal) : Bool :=
  w.current.terminal = t

/-- All tokens that the window shows or is going to show. -/
def tokens (w : Window) : List Token :=
  w.current :: w.ahead.token :: w.queue.map Item.token

/-- How many tokens other than the end are current or still to come. -/
def pending (w : Window) : Nat :=
  w.tokens.countP fun t => t.terminal ≠ .ending

theorem pending_slide (w : Window) :
    w.slide.pending + (if w.check .ending then 0 else 1) = w.pending := by
  unfold slide pending tokens check
  split
  · next h =>
    by_cases e : w.current.terminal = .ending <;> simp [h, e, Token.ending, List.countP_cons]
  · next h =>
    by_cases e : w.current.terminal = .ending <;> simp [h, e, List.countP_cons]

theorem pending_slide_le (w : Window) : w.slide.pending ≤ w.pending := by
  have := w.pending_slide
  omega

theorem pending_slide_lt {w : Window} (h : w.check .ending = false) :
    w.slide.pending < w.pending := by
  have := w.pending_slide
  simp only [h, Bool.false_eq_true, ite_false] at this
  omega

end Window

end DeoLang
