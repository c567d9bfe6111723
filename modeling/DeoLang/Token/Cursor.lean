import DeoLang.Text.Blank
import DeoLang.Token.Fragment

/-!
# Cursors

* `Cursor`: a place in a source, with the number of its line.
* `Cursor.skip`: the cursor behind blanks and comments.
* `Cursor.next`: the token or the error at a cursor, and the cursor behind it.
* `Cursor.results`: all tokens and errors of a source, the token for its end last. They are those
  that `next` gives one after the other: `results_of_nil`, `results_of_cons`.
-/

namespace DeoLang

/-- A token of a source, or what is wrong in its place. -/
abbrev Lexed := Except LexError Token

/-- What is left of a source, and the line where it starts. -/
structure Cursor where
  rest : List Char
  line : Nat
  deriving Repr, DecidableEq

namespace Fragment

/-- The token or the error that a fragment at `line` stands for. -/
def lexed (f : Fragment) (line : Nat) : Lexed :=
  match f.content with
  | .ok terminal => .ok ⟨terminal, String.ofList f.text, line⟩
  | .error fault => .error ⟨fault, line⟩

/-- The cursor behind a fragment at `line`. -/
def behind (f : Fragment) (line : Nat) : Cursor :=
  ⟨f.rest, line + f.text.count '\n'⟩

end Fragment

namespace Cursor

/-- The start of a source. -/
def ofSource (source : String) : Cursor :=
  ⟨source.toList, 1⟩

/-- Skips blanks and comments. A comment runs from its mark to the end of the line, and `inside`
tells whether the text starts within one. -/
def skipFrom (inside : Bool) : List Char → Nat → Cursor
  | [], line => ⟨[], line⟩
  | c :: cs, line =>
    if c = '\n' then skipFrom false cs (line + 1)
    else if inside || c = '#' then skipFrom true cs line
    else if isBlank c then skipFrom false cs line
    else ⟨c :: cs, line⟩

/-- The cursor at the next fragment, or at the end of the source. -/
def skip (c : Cursor) : Cursor :=
  skipFrom false c.rest c.line

theorem length_skipFrom_rest_le (inside : Bool) (cs : List Char) (line : Nat) :
    (skipFrom inside cs line).rest.length ≤ cs.length := by
  induction cs generalizing inside line with
  | nil => simp [skipFrom]
  | cons c cs ih =>
    unfold skipFrom
    split
    · exact Nat.le_succ_of_le (ih _ _)
    split
    · exact Nat.le_succ_of_le (ih _ _)
    split
    · exact Nat.le_succ_of_le (ih _ _)
    · exact Nat.le_refl _

theorem length_skip_rest_le (c : Cursor) : c.skip.rest.length ≤ c.rest.length :=
  length_skipFrom_rest_le false c.rest c.line

/-- The token or the error at the cursor, and the cursor behind it. At the end of the source this
is the token for the end, again and again. -/
def next (c : Cursor) : Lexed × Cursor :=
  match c.skip.rest with
  | [] => (.ok (Token.ending c.skip.line), c.skip)
  | a :: cs =>
    let f := Fragment.scan a cs
    (f.lexed c.skip.line, f.behind c.skip.line)

theorem next_of_nil {c : Cursor} (h : c.skip.rest = []) :
    c.next = (.ok (Token.ending c.skip.line), ⟨[], c.skip.line⟩) := by
  have skipped : c.skip = ⟨[], c.skip.line⟩ := by rw [← h]
  simp only [next, h, ← skipped]

theorem next_of_cons {c : Cursor} {a : Char} {cs : List Char} (h : c.skip.rest = a :: cs) :
    c.next = ((Fragment.scan a cs).lexed c.skip.line, (Fragment.scan a cs).behind c.skip.line) := by
  simp only [next, h]

theorem length_behind_rest_lt {c : Cursor} {a : Char} {cs : List Char} (h : c.skip.rest = a :: cs) :
    ((Fragment.scan a cs).behind c.skip.line).rest.length < c.rest.length := by
  have shorter := Fragment.length_scan_rest_le a cs
  have skipped := c.length_skip_rest_le
  simp only [h, List.length_cons] at skipped
  simp only [Fragment.behind]
  omega

/-- The results from the cursor on, in front of which `before` was found, newest first. -/
def resultsAfter (before : List Lexed) (c : Cursor) : List Lexed :=
  match _h : c.skip.rest with
  | [] => (.ok (Token.ending c.skip.line) :: before).reverse
  | a :: cs =>
    let f := Fragment.scan a cs
    resultsAfter (f.lexed c.skip.line :: before) (f.behind c.skip.line)
termination_by c.rest.length
decreasing_by exact length_behind_rest_lt _h

/-- All tokens and errors from the cursor on; the last one is the token for the end. -/
def results (c : Cursor) : List Lexed :=
  resultsAfter [] c

theorem resultsAfter_of_nil (before : List Lexed) {c : Cursor} (h : c.skip.rest = []) :
    c.resultsAfter before = (.ok (Token.ending c.skip.line) :: before).reverse := by
  rw [resultsAfter]
  split
  · rfl
  · next h' => simp [h] at h'

theorem resultsAfter_of_cons (before : List Lexed) {c : Cursor} {a : Char} {cs : List Char}
    (h : c.skip.rest = a :: cs) :
    c.resultsAfter before = ((Fragment.scan a cs).behind c.skip.line).resultsAfter
      ((Fragment.scan a cs).lexed c.skip.line :: before) := by
  rw [resultsAfter]
  split
  · next h' => simp [h] at h'
  · next h' => rw [h] at h'; cases h'; rfl

theorem resultsAfter_append (before older : List Lexed) (c : Cursor) :
    c.resultsAfter (before ++ older) = older.reverse ++ c.resultsAfter before := by
  fun_induction resultsAfter before c with
  | case1 before c h => rw [resultsAfter_of_nil _ h, List.reverse_cons, List.reverse_append]; simp
  | case2 before c a cs h f ih => rw [resultsAfter_of_cons _ h]; exact ih

theorem resultsAfter_eq_append (before : List Lexed) (c : Cursor) :
    c.resultsAfter before = before.reverse ++ c.results :=
  resultsAfter_append [] before c

/-- At the end of a source the only result is the token for the end. -/
theorem results_of_nil {c : Cursor} (h : c.skip.rest = []) :
    c.results = [.ok (Token.ending c.skip.line)] := by
  simp [results, resultsAfter_of_nil _ h]

/-- Elsewhere the first result is that of the fragment at the cursor. -/
theorem results_of_cons {c : Cursor} {a : Char} {cs : List Char} (h : c.skip.rest = a :: cs) :
    c.results = (Fragment.scan a cs).lexed c.skip.line ::
      ((Fragment.scan a cs).behind c.skip.line).results := by
  rw [results, resultsAfter_of_cons _ h, resultsAfter_eq_append]
  rfl

/-- The first `count` results from the cursor on. -/
def take : Nat → Cursor → List Lexed
  | 0, _ => []
  | count + 1, c => c.next.1 :: take count c.next.2

end Cursor

end DeoLang
