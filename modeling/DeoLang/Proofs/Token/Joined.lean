import DeoLang.Proofs.Token.Passage
import DeoLang.Proofs.Token.Printed

/-!
# Joined tokens

* `Token.entry`: the class and the text of a token.
* `joined`: the texts of entries with one blank between each two.
* `LexedAs`: a source is lexed without an error as given entries and the end behind them.
* `entriesOf`: the entries of a source without its end; `spelled_of_mem_entriesOf`.
* `lexedAs_joined`: each text of a class delimits itself in front of a blank.
* **`lex_joined`**: lexing undoes the joining of entries, those of any source among them.
-/

namespace DeoLang

/-- A class of tokens and a text. -/
abbrev Entry := Terminal × String

/-- The text of the entry is one that the class can have. -/
def Entry.Spelled (e : Entry) : Prop :=
  Spells e.1 e.2.toList

/-- The class and the text of a token. -/
def Token.entry (t : Token) : Entry :=
  (t.terminal, t.lexeme)

/-- The texts of entries, with one blank between each two. -/
def joined (entries : List Entry) : String :=
  " ".intercalate (entries.map Prod.snd)

/-- The source is lexed without an error as the entries, and the end comes behind them. -/
def LexedAs (source : String) (entries : List Entry) : Prop :=
  ∃ (ts : List Token) (last : Nat),
    (Cursor.ofSource source).results = ts.map .ok ++ [.ok (Token.ending last)] ∧
      ts.map Token.entry = entries

/-- The entries of the tokens that a source has in front of its end. -/
def entriesOf (source : String) : List Entry :=
  ((tokensOf (Cursor.ofSource source).results).filter (·.terminal ≠ .ending)).map Token.entry

/-- The tokens of entries, apart from their lines. -/
def tokensOfEntries (entries : List Entry) : List Token :=
  entries.map fun e => ⟨e.1, e.2, 0⟩

theorem written_tokensOfEntries (e : Entry) (entries : List Entry) :
    written (tokensOfEntries (e :: entries)) = ' ' :: (joined (e :: entries)).toList := by
  induction entries generalizing e with
  | nil => simp [written, tokensOfEntries, joined]
  | cons next entries ih =>
    have first : written (tokensOfEntries (e :: next :: entries)) =
        ' ' :: e.2.toList ++ written (tokensOfEntries (next :: entries)) := rfl
    have between : joined (e :: next :: entries) = e.2 ++ " " ++ joined (next :: entries) := by
      simp only [joined, List.map_cons, String.intercalate_cons_cons]
    rw [first, ih, between, String.toList_append, String.toList_append, List.append_assoc]
    rfl

theorem results_joined (entries : List Entry) :
    (Cursor.ofSource (joined entries)).results =
      (Cursor.mk (written (tokensOfEntries entries)) 1).results := by
  cases entries with
  | nil => rfl
  | cons e entries => rw [written_tokensOfEntries, Cursor.results_blank, Cursor.ofSource]

theorem map_entry_eq_of_plain {ts us : List Token} (h : ts.map Token.plain = us.map Token.plain) :
    ts.map Token.entry = us.map Token.entry := by
  have entries := congrArg (List.map Token.entry) h
  rwa [List.map_map, List.map_map] at entries

/-- **Each text of a class delimits itself in front of a blank**, whatever it contains. -/
theorem lexedAs_joined {entries : List Entry} (h : ∀ e ∈ entries, e.Spelled) :
    LexedAs (joined entries) entries := by
  have spelled : ∀ t ∈ tokensOfEntries entries, t.Spelled := by
    intro t ht
    obtain ⟨e, he, rfl⟩ := List.mem_map.mp ht
    exact h e he
  obtain ⟨ts, last, results, same⟩ := Cursor.exists_results_written spelled 1
  refine ⟨ts, last, (results_joined entries).trans results, ?_⟩
  rw [map_entry_eq_of_plain same, tokensOfEntries, List.map_map]
  exact List.map_id entries

theorem spelled_of_mem_entriesOf {source : String} {e : Entry} (h : e ∈ entriesOf source) :
    e.Spelled := by
  obtain ⟨t, ht, rfl⟩ := List.mem_map.mp h
  obtain ⟨mem, notEnding⟩ := List.mem_filter.mp ht
  obtain ⟨r, hr, token⟩ := List.mem_filterMap.mp mem
  cases r with
  | error _ => cases token
  | ok u =>
    cases token
    exact Cursor.spelled_of_mem_results hr (of_decide_eq_true notEnding)

/-- **Lexing undoes the joining of entries.** Entries whose texts their classes can have are read
back from their joined texts, and the tokens of any source are such entries. -/
theorem lex_joined :
    (∀ entries : List Entry, (∀ e ∈ entries, e.Spelled) → LexedAs (joined entries) entries) ∧
      ∀ source : String, (∀ e ∈ entriesOf source, e.Spelled) ∧
        LexedAs (joined (entriesOf source)) (entriesOf source) := by
  constructor
  · intro entries spelled
    exact lexedAs_joined spelled
  · intro source
    have spelled : ∀ e ∈ entriesOf source, e.Spelled := fun _ mem => spelled_of_mem_entriesOf mem
    exact ⟨spelled, lexedAs_joined spelled⟩

theorem lex_joined_quotes : LexedAs "''' 5b1 '\n'"
    [(.character, "'''"), (.integer, "5b1"), (.character, "'\n'")] := by
  refine lex_joined.1 [(.character, "'''"), (.integer, "5b1"), (.character, "'\n'")] ?_
  simp only [List.forall_mem_cons, List.not_mem_nil, false_implies, implies_true, and_true]
  have digits : Base.decimal.Digits ['5'] := ⟨by decide, by simp [Base.Digit]⟩
  have bits : Base.binary.Digits ['1'] := ⟨by decide, by simp [Base.Digit]⟩
  refine ⟨.character (.plain (by decide)) (by decide), ?_,
    .character (.plain (by decide)) (by decide)⟩
  exact Spells.marked digits (.inr ⟨rfl, rfl⟩) bits

end DeoLang
