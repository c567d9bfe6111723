import Mathlib.Tactic.Set
import DeoLang.Token.Cursor

/-!
# The partition of a source

* `Trivia`: blanks and comments.
* `Cursor.cursor_induction`: induction along the fragments of a source.
* `skip_spec`, `isBlank_eq_false_of_skipFrom`: skipping passes over trivia, and none are left in
  front of a fragment.
* `skipFrom_trivia`, `skipFrom_of_not_blank`: it passes over all trivia, and over nothing else.
* `Piece`, `IsPartition`: trivia with the fragment behind it and its result, and what it means that
  a source consists of such pieces.
* **`exists_partition`**: every source does, and behind its end there is only the end, again and
  again.
-/

namespace DeoLang

/-- Blanks and comments. A comment runs up to a line break, or to the end of the source if the
trivia are `last` in it. -/
inductive Trivia (last : Bool) : List Char → Prop where
  | nil : Trivia last []
  | blank {c : Char} {cs : List Char} : isBlank c = true → Trivia last cs → Trivia last (c :: cs)
  | comment {body cs : List Char} : '\n' ∉ body → Trivia last ('\n' :: cs) →
      Trivia last ('#' :: body ++ '\n' :: cs)
  | unfinished {body : List Char} : last = true → '\n' ∉ body → Trivia last ('#' :: body)

/-- The line of a result. -/
def Lexed.line : Lexed → Nat
  | .ok t => t.line
  | .error e => e.line

namespace Cursor

/-- Induction along the fragments of a source. -/
@[elab_as_elim]
theorem cursor_induction {motive : Cursor → Prop} (nil : ∀ c, c.skip.rest = [] → motive c)
    (cons : ∀ c a cs, c.skip.rest = a :: cs →
      motive ((Fragment.scan a cs).behind c.skip.line) → motive c) (c : Cursor) : motive c :=
  resultsAfter.induct (fun _ c => motive c) (fun _ => nil) (fun _ => cons) [] c

/-! ## Trivia -/

theorem isBlank_newline : isBlank '\n' = true := by
  decide

/-- Skipping passes over trivia. Within a comment, these are what completes the comment. -/
theorem skipFrom_spec (inside : Bool) (cs : List Char) (line : Nat) :
    ∃ t, cs = t ++ (skipFrom inside cs line).rest ∧
      (skipFrom inside cs line).line = line + t.count '\n' ∧
      if inside then
        ∀ body, '\n' ∉ body → Trivia (skipFrom inside cs line).rest.isEmpty ('#' :: body ++ t)
      else Trivia (skipFrom inside cs line).rest.isEmpty t := by
  induction cs generalizing inside line with
  | nil =>
    refine ⟨[], by simp [skipFrom], by simp [skipFrom], ?_⟩
    cases inside with
    | false => exact .nil
    | true => exact fun body hb => by rw [List.append_nil]; exact .unfinished rfl hb
  | cons c cs ih =>
    unfold skipFrom
    by_cases newline : c = '\n'
    · subst newline
      obtain ⟨t, text, lines, trivia⟩ := ih false (line + 1)
      simp only [↓reduceIte]
      have blank := Trivia.blank isBlank_newline trivia
      refine ⟨'\n' :: t, by rw [List.cons_append, ← text], ?_, ?_⟩
      · rw [lines, List.count_cons_self]
        omega
      · cases inside with
        | false => exact blank
        | true => exact fun body hb => .comment hb blank
    have same : (c :: cs).count '\n' = cs.count '\n' := List.count_cons_of_ne newline
    rw [if_neg newline]
    by_cases comment : inside || c = '#'
    · obtain ⟨t, text, lines, trivia⟩ := ih true line
      rw [if_pos comment]
      refine ⟨c :: t, by rw [List.cons_append, ← text], ?_, ?_⟩
      · rw [lines, List.count_cons_of_ne newline]
      cases inside with
      | false =>
        obtain rfl : c = '#' := by simpa using comment
        exact trivia [] (by simp)
      | true =>
        intro body hb
        have longer := trivia (body ++ [c]) (by simp [hb, Ne.symm newline])
        rwa [List.cons_append, List.append_assoc, List.singleton_append] at longer
    obtain ⟨rfl, -⟩ : inside = false ∧ c ≠ '#' := by simpa using comment
    rw [if_neg comment]
    by_cases blank : isBlank c = true
    · obtain ⟨t, text, lines, trivia⟩ := ih false line
      rw [if_pos blank]
      exact ⟨c :: t, by rw [List.cons_append, ← text],
        by rw [lines, List.count_cons_of_ne newline], .blank blank trivia⟩
    · rw [if_neg blank]
      exact ⟨[], rfl, rfl, .nil⟩

/-- **Skipping passes over trivia.** -/
theorem skip_spec (c : Cursor) : ∃ t, c.rest = t ++ c.skip.rest ∧
    c.skip.line = c.line + t.count '\n' ∧ Trivia c.skip.rest.isEmpty t :=
  skipFrom_spec false c.rest c.line

/-- Skipping leaves no trivia in front. -/
theorem isBlank_eq_false_of_skipFrom {inside : Bool} {cs rest : List Char} {line : Nat} {a : Char}
    (h : (skipFrom inside cs line).rest = a :: rest) : isBlank a = false ∧ a ≠ '#' := by
  fun_induction skipFrom inside cs line with
  | case1 => cases h
  | case2 _ _ _ ih => exact ih h
  | case3 _ _ _ _ _ _ ih => exact ih h
  | case4 _ _ _ _ _ _ _ ih => exact ih h
  | case5 inside c cs line newline noComment blank =>
    obtain ⟨rfl, -⟩ := List.cons.inj h
    obtain ⟨-, ne⟩ : inside = false ∧ c ≠ '#' := by simpa using noComment
    exact ⟨Bool.eq_false_iff.mpr blank, ne⟩

theorem skipFrom_of_not_newline (inside : Bool) {c : Char} (cs : List Char) (line : Nat)
    (ne : c ≠ '\n') (go : inside = true ∨ c = '#') :
    skipFrom inside (c :: cs) line = skipFrom true cs line := by
  rw [skipFrom, if_neg ne, if_pos (by simpa using go)]

theorem skipFrom_comment {body : List Char} (oneLine : '\n' ∉ body) (rest : List Char)
    (line : Nat) : skipFrom true (body ++ '\n' :: rest) line = skipFrom false rest (line + 1) := by
  induction body with
  | nil => rw [List.nil_append, skipFrom, if_pos rfl]
  | cons c body ih =>
    obtain ⟨first, later⟩ := not_or.mp (mt List.mem_cons.mpr oneLine)
    rw [List.cons_append, skipFrom_of_not_newline true _ line (Ne.symm first) (.inl rfl), ih later]

theorem skipFrom_trivia {t : List Char} (h : Trivia false t) (rest : List Char) (line : Nat) :
    skipFrom false (t ++ rest) line = skipFrom false rest (line + t.count '\n') := by
  induction h generalizing line with
  | nil => rfl
  | @blank c t blank _ ih =>
    rw [List.cons_append, skipFrom]
    by_cases newline : c = '\n'
    · rw [if_pos newline, ih, newline, List.count_cons_self, Nat.add_right_comm, Nat.add_assoc]
    · have noComment : ¬(false || c = '#') = true := by
        rintro comment
        obtain rfl : c = '#' := by simpa using comment
        exact absurd blank (by decide)
      rw [if_neg newline, if_neg noComment, if_pos blank, ih, List.count_cons_of_ne newline]
  | @comment body t oneLine _ ih =>
    have text : '#' :: body ++ '\n' :: t ++ rest = '#' :: (body ++ '\n' :: (t ++ rest)) := by simp
    have newline : skipFrom false (t ++ rest) (line + 1) =
        skipFrom false ('\n' :: t ++ rest) line := by
      rw [List.cons_append, skipFrom.eq_2 false, if_pos rfl]
    have count : ('#' :: body ++ '\n' :: t).count '\n' = ('\n' :: t).count '\n' := by
      rw [List.count_append, List.count_cons_of_ne (by decide),
        List.count_eq_zero_of_not_mem oneLine, Nat.zero_add]
    rw [text, skipFrom_of_not_newline false _ line (by decide) (.inr rfl), skipFrom_comment oneLine,
      newline, ih, count]
  | unfinished last => cases last

theorem skipFrom_of_not_blank {a : Char} (blank : isBlank a = false) (ne : a ≠ '#')
    (cs : List Char) (line : Nat) : skipFrom false (a :: cs) line = ⟨a :: cs, line⟩ := by
  have newline : a ≠ '\n' := by
    rintro rfl
    cases blank
  rw [skipFrom, if_neg newline, if_neg (by simpa using ne), if_neg (by simp [blank])]

end Cursor

/-! ## Pieces -/

namespace Fragment

theorem number_content_eq_ok {c : Char} {cs : List Char} {t : Terminal}
    (h : (number c cs).content = .ok t) : t = .integer := by
  unfold number at h
  split at h
  · cases h; rfl
  split at h
  · cases h; rfl
  split at h
  · cases h
  · cases h; rfl

theorem word_content_eq_ok {c : Char} {cs : List Char} {t : Terminal}
    (h : (word c cs).content = .ok t) : t = .identifier ∨ ∃ k, t = .keyword k := by
  unfold word at h
  dsimp only at h
  cases keyword : Keyword.ofText? (String.ofList (c :: cs.takeWhile isWordRest)) with
  | none => rw [keyword] at h; cases h; exact .inl rfl
  | some k => rw [keyword] at h; cases h; exact .inr ⟨k, rfl⟩

theorem closeQuote_content_eq_ok {before : List Char} {c : Char} {cs : List Char} {t : Terminal}
    (h : (closeQuote before c cs).content = .ok t) :
    t = .character ∧ (closeQuote before c cs).text = before ++ [c, '\''] := by
  unfold closeQuote at h ⊢
  split at h
  · dsimp only at h
    split at h
    · cases h; exact ⟨rfl, rfl⟩
    · cases h
  · cases h

theorem quoted_content_eq_ok {cs : List Char} {t : Terminal} (h : (quoted cs).content = .ok t) :
    t = .character ∧ ∃ before c, (quoted cs).text = '\'' :: before ++ [c, '\''] := by
  unfold quoted at h ⊢
  split at h
  · cases h
  · cases h
  · next c cs =>
    obtain ⟨terminal, text⟩ := closeQuote_content_eq_ok h
    exact ⟨terminal, ['\\'], c, text⟩
  · next c cs _ _ =>
    obtain ⟨terminal, text⟩ := closeQuote_content_eq_ok h
    exact ⟨terminal, [], c, text⟩

/-- What a token can be, and how a character literal is written. -/
theorem scan_content_eq_ok {c : Char} {cs : List Char} {t : Terminal}
    (h : (scan c cs).content = .ok t) : (∃ p, t = .punct p) ∨ t = .integer ∨ t = .identifier ∨
      (∃ k, t = .keyword k) ∨
      t = .character ∧ ∃ before c', (scan c cs).text = '\'' :: before ++ [c', '\''] := by
  unfold scan at h ⊢
  split at h
  · next p _ => cases h; exact .inl ⟨p, rfl⟩
  split at h
  · next quote =>
    rw [if_pos quote]
    exact .inr (.inr (.inr (.inr (quoted_content_eq_ok h))))
  split at h
  · exact .inr (.inl (number_content_eq_ok h))
  split at h
  · rcases word_content_eq_ok h with rfl | keyword
    · exact .inr (.inr (.inl rfl))
    · exact .inr (.inr (.inr (.inl keyword)))
  · cases h

theorem scan_content_ne_ending (c : Char) (cs : List Char) :
    (scan c cs).content ≠ .ok .ending := by
  intro h
  rcases scan_content_eq_ok h with ⟨p, e⟩ | e | e | ⟨k, e⟩ | ⟨e, -⟩ <;> cases e

theorem line_lexed (f : Fragment) (line : Nat) : Lexed.line (f.lexed line) = line := by
  unfold lexed Lexed.line
  cases f.content <;> rfl

theorem lexed_eq_ok {f : Fragment} {line : Nat} {t : Token} (h : f.lexed line = .ok t) :
    f.content = .ok t.terminal ∧ t.lexeme.toList = f.text := by
  unfold lexed at h
  cases hc : f.content with
  | error fault => simp [hc] at h
  | ok terminal =>
    rw [hc] at h
    cases h
    exact ⟨rfl, String.toList_ofList⟩

end Fragment

/-- Trivia, the fragment behind them, and the result that the fragment stands for. -/
structure Piece where
  trivia : List Char
  fragment : List Char
  result : Lexed

/-- The characters of a piece. -/
def Piece.text (p : Piece) : List Char :=
  p.trivia ++ p.fragment

/-- The characters of pieces. -/
def piecesText (pieces : List Piece) : List Char :=
  pieces.flatMap Piece.text

@[simp] theorem piecesText_nil : piecesText [] = [] := rfl

@[simp] theorem piecesText_cons (p : Piece) (pieces : List Piece) :
    piecesText (p :: pieces) = p.text ++ piecesText pieces := rfl

/-- The cursor behind the first `count` results. -/
def Cursor.drop : Nat → Cursor → Cursor
  | 0, c => c
  | count + 1, c => drop count c.next.2

/-- The text from a cursor on consists of `pieces` and the trivia `last`. Each fragment is the
lexeme of its token, or what an error passes over, and counting line breaks gives the lines. -/
structure IsPartition (c : Cursor) (pieces : List Piece) (last : List Char) : Prop where
  text : c.rest = piecesText pieces ++ last
  results : c.results =
    pieces.map Piece.result ++ [.ok (Token.ending (c.line + c.rest.count '\n'))]
  ending : Trivia true last
  trivia : ∀ p ∈ pieces, Trivia false p.trivia
  fragment : ∀ p ∈ pieces, p.fragment ≠ []
  token : ∀ p ∈ pieces, ∀ t, p.result = .ok t →
    t.terminal ≠ .ending ∧ t.lexeme.toList = p.fragment
  line : ∀ before p after, pieces = before ++ p :: after →
    p.result.line = c.line + (piecesText before ++ p.trivia).count '\n'
  behind : ∀ before after, pieces = before ++ after → c.drop before.length =
    ⟨piecesText after ++ last, c.line + (piecesText before).count '\n'⟩

theorem IsPartition.nil {c : Cursor} (h : c.skip.rest = []) : IsPartition c [] c.rest where
  text := rfl
  results := by
    obtain ⟨t, text, lines, -⟩ := c.skip_spec
    rw [h, List.append_nil] at text
    rw [Cursor.results_of_nil h, lines, ← text]
    rfl
  ending := by
    obtain ⟨t, text, -, trivia⟩ := c.skip_spec
    rw [h, List.append_nil] at text
    rw [h, List.isEmpty_nil] at trivia
    rwa [text]
  trivia := by simp
  fragment := by simp
  token := by simp
  line := by simp
  behind := by
    intro before after h
    obtain ⟨rfl, rfl⟩ := List.append_eq_nil_iff.mp h.symm
    rfl

theorem IsPartition.cons {c : Cursor} {a : Char} {cs : List Char} (h : c.skip.rest = a :: cs)
    {pieces : List Piece} {last : List Char}
    (rest : IsPartition ((Fragment.scan a cs).behind c.skip.line) pieces last) :
    ∃ p, IsPartition c (p :: pieces) last := by
  obtain ⟨t, text, lines, trivia⟩ := c.skip_spec
  rw [h, List.isEmpty_cons] at trivia
  have whole := Fragment.scan_text_append_rest a cs
  have next := Cursor.next_of_cons h
  set f := Fragment.scan a cs
  have split : c.rest = t ++ f.text ++ f.rest := by rw [text, h, ← whole, List.append_assoc]
  have pieces_text : c.rest = (t ++ f.text) ++ piecesText pieces ++ last := by
    rw [split, List.append_assoc (t ++ f.text), ← rest.text]
    rfl
  refine ⟨⟨t, f.text, f.lexed c.skip.line⟩, ?_⟩
  constructor
  case text => exact pieces_text
  case results =>
    rw [Cursor.results_of_cons h, rest.results, split, lines]
    simp only [Fragment.behind, List.map_cons, List.cons_append, List.count_append, Nat.add_assoc]
    rfl
  case ending => exact rest.ending
  case trivia => exact List.forall_mem_cons.mpr ⟨trivia, rest.trivia⟩
  case fragment => exact List.forall_mem_cons.mpr ⟨Fragment.scan_text_ne_nil a cs, rest.fragment⟩
  case token =>
    refine List.forall_mem_cons.mpr ⟨fun token ok => ?_, rest.token⟩
    obtain ⟨content, lexeme⟩ := Fragment.lexed_eq_ok ok
    exact ⟨fun ending => Fragment.scan_content_ne_ending a cs (ending ▸ content), lexeme⟩
  case line =>
    intro before p after split
    cases before with
    | nil =>
      cases split
      rw [Fragment.line_lexed, lines, piecesText_nil, List.nil_append]
    | cons q before =>
      obtain ⟨rfl, later⟩ := List.cons.inj split
      rw [rest.line before p after later, Fragment.behind, lines]
      simp only [piecesText_cons, Piece.text, List.count_append]
      omega
  case behind =>
    intro before after split
    cases before with
    | nil =>
      cases split
      rw [piecesText_cons, Piece.text, ← pieces_text]
      rfl
    | cons q before =>
      obtain ⟨rfl, later⟩ := List.cons.inj split
      rw [List.length_cons, Cursor.drop, next, rest.behind before after later, Fragment.behind,
        lines]
      simp only [piecesText_cons, Piece.text, List.count_append, Nat.add_assoc]

theorem exists_isPartition (c : Cursor) : ∃ pieces last, IsPartition c pieces last := by
  induction c using Cursor.cursor_induction with
  | nil c h => exact ⟨[], c.rest, .nil h⟩
  | cons c a cs h ih =>
    obtain ⟨pieces, last, rest⟩ := ih
    obtain ⟨p, partition⟩ := IsPartition.cons h rest
    exact ⟨p :: pieces, last, partition⟩

theorem length_le_length_piecesText {pieces : List Piece} (h : ∀ p ∈ pieces, p.fragment ≠ []) :
    pieces.length ≤ (piecesText pieces).length := by
  induction pieces with
  | nil => exact Nat.le_refl _
  | cons p pieces ih =>
    obtain ⟨first, later⟩ := List.forall_mem_cons.mp h
    have pos := List.length_pos_iff.mpr first
    have le := ih later
    simp only [piecesText_cons, Piece.text, List.length_append, List.length_cons]
    omega

namespace IsPartition

variable {c : Cursor} {pieces : List Piece} {last : List Char}

theorem length_results (h : IsPartition c pieces last) :
    c.results.length ≤ c.rest.length + 1 := by
  have le := length_le_length_piecesText h.fragment
  rw [h.results, h.text]
  simp only [List.length_append, List.length_map, List.length_cons, List.length_nil]
  omega

end IsPartition

/-! ## Behind the end -/

namespace Cursor

theorem take_of_ended (n line : Nat) :
    take n ⟨[], line⟩ = List.replicate n (.ok (Token.ending line)) := by
  induction n with
  | zero => rfl
  | succ n ih =>
    rw [take, next_of_nil rfl, List.replicate_succ]
    exact congrArg _ ih

/-- Asking for more results than there are gives the last one, the end, over and over. -/
theorem take_length_results_add (c : Cursor) (n : Nat) :
    take (c.results.length + n) c =
      c.results ++ List.replicate n (.ok (Token.ending (c.line + c.rest.count '\n'))) := by
  induction c using cursor_induction with
  | nil c h =>
    obtain ⟨t, text, lines, -⟩ := c.skip_spec
    rw [h, List.append_nil] at text
    rw [results_of_nil h, List.length_singleton, Nat.add_comm, take, next_of_nil h, take_of_ended,
      lines, ← text]
    rfl
  | cons c a cs h ih =>
    obtain ⟨t, text, lines, -⟩ := c.skip_spec
    have whole := Fragment.scan_text_append_rest a cs
    have next := next_of_cons h
    have count : c.line + c.rest.count '\n' = ((Fragment.scan a cs).behind c.skip.line).line +
        ((Fragment.scan a cs).behind c.skip.line).rest.count '\n' := by
      rw [text, h, ← whole, Fragment.behind, lines]
      simp only [List.count_append, Nat.add_assoc]
    rw [results_of_cons h, List.length_cons, Nat.add_right_comm, take, next, ih, count]
    rfl

end Cursor

/-- **A source consists of trivia and fragments.** There are at most as many fragments as there are
characters. Each of them gives one result, and one more result stands for the end. Asking for
results goes on with the end. -/
theorem exists_partition (source : String) :
    ∃ pieces last, IsPartition (Cursor.ofSource source) pieces last ∧
      (Cursor.ofSource source).results.length ≤ source.length + 1 ∧
      ∀ n, Cursor.take ((Cursor.ofSource source).results.length + n) (Cursor.ofSource source) =
        (Cursor.ofSource source).results ++
          List.replicate n (.ok (Token.ending (1 + source.toList.count '\n'))) := by
  obtain ⟨pieces, last, partition⟩ := exists_isPartition (Cursor.ofSource source)
  refine ⟨pieces, last, partition, ?_, Cursor.take_length_results_add _⟩
  rw [← String.length_toList]
  exact partition.length_results

end DeoLang
