import DeoLang.Proofs.Token.Passage
import DeoLang.Proofs.Token.Replace

/-!
# Texts one behind the other

* `Token.shift`, `LexError.shift`, `Lexed.shift`, `Item.shift`: the same some lines further down.
* `Cursor.results_shift`: a text further down has the same results, further down.
* **`Cursor.results_append`**: a source whose last result is a token has the same results in front
  of another source on the next line.
-/

namespace DeoLang

variable (k : Nat)

/-- The token `k` lines further down. -/
def Token.shift (t : Token) : Token :=
  { t with line := t.line + k }

/-- The error `k` lines further down. -/
def LexError.shift (e : LexError) : LexError :=
  { e with line := e.line + k }

/-- The result `k` lines further down. -/
def Lexed.shift : Lexed → Lexed
  | .ok t => .ok (t.shift k)
  | .error e => .error (e.shift k)

/-- The item `k` lines further down. -/
def Item.shift (i : Item) : Item :=
  ⟨i.errors.map (LexError.shift k), i.token.shift k⟩

@[simp] theorem Token.terminal_shift (t : Token) : (t.shift k).terminal = t.terminal := rfl

@[simp] theorem Token.lexeme_shift (t : Token) : (t.shift k).lexeme = t.lexeme := rfl

@[simp] theorem Token.line_shift (t : Token) : (t.shift k).line = t.line + k := rfl

@[simp] theorem Item.token_shift (i : Item) : (i.shift k).token = i.token.shift k := rfl

@[simp] theorem Item.errors_shift (i : Item) :
    (i.shift k).errors = i.errors.map (LexError.shift k) := rfl

theorem Item.shift_zero (i : Item) : i.shift 0 = i := by
  have errors : i.errors.map (LexError.shift 0) = i.errors := List.map_id i.errors
  rw [Item.shift, errors]
  rfl

theorem map_shift_zero (items : List Item) : items.map (Item.shift 0) = items := by
  rw [funext Item.shift_zero]
  exact List.map_id items

theorem group_map_shift (results : List Lexed) :
    Item.group (results.map (Lexed.shift k)) = (Item.group results).map (Item.shift k) :=
  Item.group_map (fun _ => rfl) (fun _ => rfl) (fun _ => rfl) results

/-! ## Further down -/

namespace Cursor

/-- The same text `k` lines further down. -/
def shift (c : Cursor) : Cursor :=
  ⟨c.rest, c.line + k⟩

theorem skipFrom_add (inside : Bool) (cs : List Char) (line : Nat) :
    skipFrom inside cs (line + k) = (skipFrom inside cs line).shift k := by
  induction cs generalizing inside line with
  | nil => rfl
  | cons c cs ih =>
    unfold skipFrom
    split
    · rw [Nat.add_right_comm, ih]
    split
    · exact ih true line
    split
    · exact ih false line
    · rfl

theorem skip_shift (c : Cursor) : (c.shift k).skip = c.skip.shift k :=
  skipFrom_add k false c.rest c.line

theorem lexed_add (f : Fragment) (line : Nat) : f.lexed (line + k) = (f.lexed line).shift k := by
  unfold Fragment.lexed
  cases f.content <;> rfl

theorem behind_add (f : Fragment) (line : Nat) :
    f.behind (line + k) = (f.behind line).shift k := by
  rw [Fragment.behind, Fragment.behind, shift, Nat.add_right_comm]

/-- **A text further down has the same results, further down.** -/
theorem results_shift (c : Cursor) : (c.shift k).results = c.results.map (Lexed.shift k) := by
  induction c using cursor_induction with
  | nil c h =>
    have h' : (c.shift k).skip.rest = [] := by rw [skip_shift]; exact h
    rw [results_of_nil h, results_of_nil h', skip_shift]
    rfl
  | cons c a cs h ih =>
    have h' : (c.shift k).skip.rest = a :: cs := by rw [skip_shift]; exact h
    rw [results_of_cons h, results_of_cons h', skip_shift, List.map_cons, ← ih]
    rw [shift, lexed_add, behind_add]

end Cursor

/-! ## One behind the other -/

namespace Cursor

/-- A line break ends a comment that runs up to the end of a text. -/
theorem skipFrom_append_newline {inside : Bool} {cs : List Char} {line : Nat}
    (ended : (skipFrom inside cs line).rest = []) (text : List Char) :
    skipFrom inside (cs ++ '\n' :: text) line =
      skipFrom false text ((skipFrom inside cs line).line + 1) := by
  induction cs generalizing inside line with
  | nil => simp [skipFrom]
  | cons c cs ih =>
    rw [List.cons_append]
    unfold skipFrom at ended
    rw [skipFrom, skipFrom.eq_2 inside line c cs]
    split at ended
    · next newline => rw [if_pos newline, if_pos newline]; exact ih ended
    next noNewline =>
    rw [if_neg noNewline, if_neg noNewline]
    split at ended
    · next comment => rw [if_pos comment, if_pos comment]; exact ih ended
    next noComment =>
    rw [if_neg noComment, if_neg noComment]
    split at ended
    · next blank => rw [if_pos blank, if_pos blank]; exact ih ended
    · cases ended

theorem results_eq_of_skip {c c' : Cursor} (same : c.skip = c'.skip) : c.results = c'.results := by
  cases h : c.skip.rest with
  | nil => rw [results_of_nil h, results_of_nil (same ▸ h), same]
  | cons a cs =>
    have h' : c'.skip.rest = a :: cs := same ▸ h
    rw [results_of_cons h, results_of_cons h', same]

theorem results_ne_nil (c : Cursor) : c.results ≠ [] := by
  cases h : c.skip.rest with
  | nil => simp [results_of_nil h]
  | cons a cs => simp [results_of_cons h]

/-- **A source whose last result is a token has the same results in front of another source on the
next line.** -/
theorem results_append {c : Cursor} {rs : List Lexed} {e : Lexed} (results : c.results = rs ++ [e])
    (last : ∀ r ∈ rs.getLast?, ∃ t, r = .ok t) (text : List Char) :
    (Cursor.mk (c.rest ++ '\n' :: text) c.line).results =
      rs ++ (Cursor.mk text (c.line + c.rest.count '\n' + 1)).results := by
  obtain ⟨c', lexes, single⟩ := Lexes.exists_of_results results (List.cons_ne_nil e [])
  have ended : c'.skip.rest = [] := by
    cases shape : c'.skip.rest with
    | nil => rfl
    | cons a cs =>
      rw [results_of_cons shape] at single
      exact absurd (List.cons.inj single).2 (results_ne_nil _)
  -- what is left behind the last token is trivia up to the end
  obtain ⟨t, rest, lines, trivia⟩ := c'.skip_spec
  rw [ended, List.append_nil] at rest
  have stop : ∀ b ∈ (t ++ '\n' :: text).head?, isWordRest b = false := by
    refine trivia.stop fun _ => ?_
    rintro _ ⟨⟩
    rfl
  obtain ⟨p, whole, line, -, lexes⟩ := lexes.replace last stop
  have skipped : (Cursor.mk (t ++ '\n' :: text) c'.line).results =
      (Cursor.mk text (c.line + c.rest.count '\n' + 1)).results := by
    refine results_eq_of_skip ?_
    rw [whole, rest, List.count_append, ← Nat.add_assoc, ← line, ← lines, ← rest]
    exact skipFrom_append_newline ended text
  rw [whole, rest, List.append_assoc, lexes.results, skipped, whole, rest]

/-- The same of two sources with a line break between them. -/
theorem results_ofSource_append {a : String} {rs : List Lexed} {e : Lexed}
    (results : (ofSource a).results = rs ++ [e]) (last : ∀ r ∈ rs.getLast?, ∃ t, r = .ok t)
    (b : String) : (ofSource (a ++ "\n" ++ b)).results =
      rs ++ (ofSource b).results.map (Lexed.shift (1 + a.toList.count '\n')) := by
  have appended := results_append results last b.toList
  have text : (a ++ "\n" ++ b).toList = a.toList ++ '\n' :: b.toList := by
    simp
  rw [← results_shift, ofSource, text]
  refine appended.trans (congrArg (fun c : Cursor => rs ++ c.results) ?_)
  rw [shift, ofSource, ofSource]
  simp [Nat.add_comm]

end Cursor

end DeoLang
