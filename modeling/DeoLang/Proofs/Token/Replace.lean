import DeoLang.Proofs.Token.Written

/-!
# What lexing depends on

* `Fragment.Settles`: what is scanned does not depend on what follows the character behind it;
  `settles_scan` says so of each fragment.
* `Trivia.stop`, `Cursor.skip_of_skip`: no word goes on with trivia, and skipping passes over them
  whatever follows.
* `Cursor.Lexes`: results that are lexed one after the other, and the cursor behind them.
* **`Cursor.Lexes.replace`**: the text behind a token can be replaced by any other one that does not
  go on with a word, and nothing in front of it is lexed in another way.
-/

namespace DeoLang

namespace Fragment

/-- The fragment with another text behind it. -/
def withRest (f : Fragment) (rest : List Char) : Fragment :=
  { f with rest := rest }

/-- If a character is left behind the fragment, what follows that character does not matter. -/
def Settles (scan : List Char → Fragment) (cs : List Char) : Prop :=
  ∀ b rest, (scan cs).rest = b :: rest → ∃ text, cs = text ++ b :: rest ∧
    ∀ rest', scan (text ++ b :: rest') = (scan cs).withRest (b :: rest')

theorem span_of_dropWhile {α : Type} {f : α → Bool} {cs : List α} {b : α} {rest : List α}
    (left : cs.dropWhile f = b :: rest) (rest' : List α) :
    (cs.takeWhile f ++ b :: rest').takeWhile f = cs.takeWhile f ∧
      (cs.takeWhile f ++ b :: rest').dropWhile f = b :: rest' := by
  have stop : f b = false := by
    have first := List.head?_dropWhile_not f cs
    rwa [left] at first
  refine span_append (List.all_eq_true.mp List.all_takeWhile) ?_
  rintro _ ⟨⟩
  exact stop

theorem settles_word (c : Char) (cs : List Char) : Settles (word c) cs := by
  intro b rest left
  refine ⟨cs.takeWhile isWordRest, ?_, fun rest' => ?_⟩
  · rw [← show cs.dropWhile isWordRest = b :: rest from left, List.takeWhile_append_dropWhile]
  · obtain ⟨run, tail⟩ := span_of_dropWhile (f := isWordRest) left rest'
    rw [word, run, tail]
    rfl

theorem settles_number (c : Char) (cs : List Char) : Settles (number c) cs := by
  intro b rest left
  have split := List.takeWhile_append_dropWhile (p := Char.isDigit) (l := cs)
  cases shape : cs.dropWhile Char.isDigit with
  | nil => simp [number, shape] at left
  | cons m behind =>
    rw [shape] at split
    have span := span_of_dropWhile shape
    cases marker : Base.ofMarker? m with
    | none =>
      have whole : number c cs =
          ⟨.ok .integer, c :: cs.takeWhile Char.isDigit, m :: behind⟩ := by
        simp only [number, shape, marker]
      rw [whole] at left ⊢
      obtain ⟨rfl, rfl⟩ := List.cons.inj left
      refine ⟨cs.takeWhile Char.isDigit, split.symm, fun rest' => ?_⟩
      simp only [number, span, marker]
      rfl
    | some base =>
      have parts := List.takeWhile_append_dropWhile (p := base.isDigit) (l := behind)
      cases empty : (behind.takeWhile base.isDigit).isEmpty with
      | true =>
        have whole : number c cs =
            ⟨.error (.noDigits base), c :: cs.takeWhile Char.isDigit ++ [m], behind⟩ := by
          simp [number, shape, marker, empty]
        rw [whole] at left ⊢
        obtain rfl : behind = b :: rest := left
        refine ⟨cs.takeWhile Char.isDigit ++ [m], by simp [split], fun rest' => ?_⟩
        have stop : base.isDigit b = false := by
          rw [List.takeWhile_cons] at empty
          by_contra digit
          rw [if_pos (Bool.eq_true_of_not_eq_false digit)] at empty
          cases empty
        rw [List.append_assoc, List.singleton_append]
        simp [number, span, marker, stop]
        rfl
      | false =>
        have whole : number c cs = ⟨.ok .integer,
            c :: cs.takeWhile Char.isDigit ++ m :: behind.takeWhile base.isDigit,
            behind.dropWhile base.isDigit⟩ := by
          simp [number, shape, marker, empty]
        rw [whole] at left ⊢
        have left : behind.dropWhile base.isDigit = b :: rest := left
        rw [left] at parts
        refine ⟨cs.takeWhile Char.isDigit ++ m :: behind.takeWhile base.isDigit, ?_,
          fun rest' => ?_⟩
        · rw [List.append_assoc, List.cons_append, parts, split]
        · obtain ⟨run, tail⟩ := span_of_dropWhile left rest'
          rw [List.append_assoc, List.cons_append]
          simp only [number, span, marker, run, tail, empty, Bool.false_eq_true, if_false]
          rfl

theorem settles_closeQuote (before : List Char) (c : Char) (cs : List Char) :
    Settles (closeQuote before c) cs := by
  intro b rest left
  by_cases closed : cs.head? = some '\''
  · obtain ⟨cs, rfl⟩ := List.head?_eq_some_iff.mp closed
    obtain rfl : cs = b :: rest := left
    exact ⟨['\''], rfl, fun rest' => rfl⟩
  · have whole : closeQuote before c cs = _ := closeQuote_of_unclosed closed
    rw [whole] at left ⊢
    obtain rfl : cs = b :: rest := left
    refine ⟨[], rfl, fun rest' => ?_⟩
    exact closeQuote_of_unclosed (by simpa using closed)

theorem Settles.cons {scan scan' : List Char → Fragment} {c : Char} {cs : List Char}
    (same : ∀ cs, scan (c :: cs) = scan' cs) (h : Settles scan' cs) : Settles scan (c :: cs) := by
  intro b rest left
  rw [same] at left ⊢
  obtain ⟨text, whole, all⟩ := h b rest left
  refine ⟨c :: text, by rw [whole]; rfl, fun rest' => ?_⟩
  rw [List.cons_append, same, all]

theorem settles_quoted (cs : List Char) : Settles quoted cs := by
  cases cs with
  | nil => rintro b rest ⟨⟩
  | cons c cs =>
    by_cases backslash : c = '\\'
    · subst backslash
      cases cs with
      | nil => rintro b rest ⟨⟩
      | cons d cs =>
        intro b rest left
        obtain ⟨text, whole, all⟩ := settles_closeQuote ['\'', '\\'] d cs b rest left
        exact ⟨'\\' :: d :: text, by rw [whole]; rfl, all⟩
    · have plain (rest : List Char) : quoted (c :: rest) = closeQuote ['\''] c rest :=
        quoted_of_escape (.plain backslash) rest
      exact Settles.cons plain (settles_closeQuote ['\''] c cs)

theorem settles_of_single {scan : List Char → Fragment} (content : Except LexFault Terminal)
    (text : List Char) (h : ∀ cs, scan cs = ⟨content, text, cs⟩) (cs : List Char) :
    Settles scan cs := by
  intro b rest left
  rw [h] at left ⊢
  exact ⟨[], left, fun rest' => h _⟩

/-- **A fragment with a character behind it does not depend on what follows that.** -/
theorem settles_scan (c : Char) (cs : List Char) : Settles (scan c) cs := by
  cases punct : Punct.ofChar? c with
  | some p => exact settles_of_single (.ok (.punct p)) [c] (fun cs => by rw [scan, punct]) cs
  | none =>
    by_cases quote : c = '\''
    · rw [show scan c = quoted from funext fun cs => by rw [scan, punct, if_pos quote]]
      exact settles_quoted cs
    by_cases digit : c.isDigit = true
    · rw [show scan c = number c from
        funext fun cs => by rw [scan, punct, if_neg quote, if_pos digit]]
      exact settles_number c cs
    by_cases letter : isWordStart c = true
    · rw [show scan c = word c from
        funext fun cs => by rw [scan, punct, if_neg quote, if_neg digit, if_pos letter]]
      exact settles_word c cs
    · refine settles_of_single (.error (.unknown c)) [c] (fun cs => ?_) cs
      rw [scan, punct, if_neg quote, if_neg digit, if_neg letter]

end Fragment

/-! ## Trivia -/

theorem isWordRest_of_isBlank {c : Char} (h : isBlank c = true) : isWordRest c = false := by
  have underscore : c = '_' ↔ c.toNat = 95 := Char.toNat_inj.symm
  rw [← Bool.not_eq_true, isWordRest_iff]
  intro word
  have visible : 0x20 < c.toNat ∧ c.toNat < 0x80 := by
    simp only [IsLetter, Base.Digit, le_iff_toNat_le, underscore, Char.reduceToNat] at word
    omega
  rw [isBlank_eq_false visible.1 visible.2] at h
  cases h

theorem Trivia.stop {last : Bool} {t rest : List Char} (h : Trivia last t)
    (stop : t = [] → ∀ b ∈ rest.head?, isWordRest b = false) :
    ∀ b ∈ (t ++ rest).head?, isWordRest b = false := by
  cases h with
  | nil => exact stop rfl
  | blank blank _ =>
    rintro _ ⟨⟩
    exact isWordRest_of_isBlank blank
  | comment | unfinished =>
    rintro _ ⟨⟩
    rfl

namespace Cursor

theorem skip_of_skip {c : Cursor} {a : Char} {cs : List Char} (h : c.skip.rest = a :: cs) :
    ∃ t, c.rest = t ++ a :: cs ∧ c.skip.line = c.line + t.count '\n' ∧
      ∀ cs', (Cursor.mk (t ++ a :: cs') c.line).skip = ⟨a :: cs', c.skip.line⟩ := by
  obtain ⟨t, text, lines, trivia⟩ := c.skip_spec
  rw [h] at text trivia
  refine ⟨t, text, lines, fun cs' => ?_⟩
  obtain ⟨blank, ne⟩ := isBlank_eq_false_of_skipFrom h
  rw [skip, skipFrom_trivia trivia, skipFrom_of_not_blank blank ne, lines]

/-! ## Results one after the other -/

/-- From `c` on the results are lexed one after the other. None of them stands for the end, and the
second cursor is behind the last one. -/
inductive Lexes : Cursor → List Lexed → Cursor → Prop where
  | nil (c : Cursor) : Lexes c [] c
  | cons {c c' : Cursor} {rs : List Lexed} : c.skip.rest ≠ [] → Lexes c.next.2 rs c' →
      Lexes c (c.next.1 :: rs) c'

namespace Lexes

variable {c c' : Cursor} {rs : List Lexed}

theorem of_cons {a : Char} {cs : List Char} (h : c.skip.rest = a :: cs)
    (later : Lexes ((Fragment.scan a cs).behind c.skip.line) rs c') :
    Lexes c ((Fragment.scan a cs).lexed c.skip.line :: rs) c' := by
  have next := next_of_cons h
  have inside : c.skip.rest ≠ [] := by
    rw [h]
    exact List.cons_ne_nil a cs
  have cons : Lexes c.next.2 rs c' → Lexes c (c.next.1 :: rs) c' := .cons inside
  rw [next] at cons
  exact cons later

theorem results (h : Lexes c rs c') : c.results = rs ++ c'.results := by
  induction h with
  | nil => rfl
  | @cons c c' rs inside later ih =>
    obtain ⟨a, cs, shape⟩ := List.exists_cons_of_ne_nil inside
    rw [results_of_cons shape, next_of_cons shape, List.cons_append, ← ih, next_of_cons shape]

theorem exists_of_results {rs' : List Lexed} (h : c.results = rs ++ rs') (nonempty : rs' ≠ []) :
    ∃ c', Lexes c rs c' ∧ c'.results = rs' := by
  induction rs generalizing c with
  | nil => exact ⟨c, .nil c, h⟩
  | cons r rs ih =>
    cases shape : c.skip.rest with
    | nil =>
      rw [results_of_nil shape, List.cons_append] at h
      have later := (List.cons.inj h).2
      exact absurd (List.append_eq_nil_iff.mp later.symm).2 nonempty
    | cons a cs =>
      rw [results_of_cons shape, List.cons_append] at h
      obtain ⟨rfl, rest⟩ := List.cons.inj h
      obtain ⟨c', later, results⟩ := ih rest
      exact ⟨c', of_cons shape later, results⟩

end Lexes

/-- Behind a token the text can be replaced by any other one that does not go on with a word, and
the fragment stays what it is. A character that is left behind it stays as well. -/
theorem scan_replace {a : Char} {cs p behind text : List Char} {line : Nat}
    (rest : (Fragment.scan a cs).rest = p ++ behind)
    (last : p = [] → ∃ t, (Fragment.scan a cs).lexed line = .ok t)
    (stop : ∀ b ∈ text.head?, isWordRest b = false) :
    ∃ front, (Fragment.scan a cs).text = a :: front ∧
      Fragment.scan a (front ++ (p ++ text)) = (Fragment.scan a cs).withRest (p ++ text) := by
  have whole := Fragment.scan_text_append_rest a cs
  cases p with
  | cons b p =>
    obtain ⟨front, split, all⟩ := Fragment.settles_scan a cs b (p ++ behind) rest
    refine ⟨front, ?_, all (p ++ text)⟩
    rw [rest] at whole
    exact List.append_cancel_right (whole.trans (congrArg (a :: ·) split))
  | nil =>
    obtain ⟨t, token⟩ := last rfl
    have greedy := Fragment.greedy_scan a cs
    have content := (Fragment.lexed_eq_ok token).1
    have nonempty := Fragment.scan_text_ne_nil a cs
    generalize Fragment.scan a cs = f at *
    cases greedy with
    | noDigits => cases content
    | fault => cases content
    | @token t' front rest' _ longest =>
      obtain ⟨b, front, rfl⟩ := List.exists_cons_of_ne_nil nonempty
      obtain ⟨rfl, -⟩ := List.cons.inj whole
      exact ⟨front, rfl, Fragment.scan_of_spells stop longest.spells⟩

/-- **Behind a token the text can be replaced by any other one that does not go on with a word**,
and nothing in front of it is lexed in another way. -/
theorem Lexes.replace {c c' : Cursor} {rs : List Lexed} (h : Lexes c rs c')
    (last : ∀ r ∈ rs.getLast?, ∃ t, r = .ok t) {text : List Char}
    (stop : ∀ b ∈ text.head?, isWordRest b = false) :
    ∃ p, c.rest = p ++ c'.rest ∧ c'.line = c.line + p.count '\n' ∧ (rs ≠ [] → p ≠ []) ∧
      Lexes ⟨p ++ text, c.line⟩ rs ⟨text, c'.line⟩ := by
  induction h with
  | nil c => exact ⟨[], rfl, rfl, fun ne => absurd rfl ne, .nil _⟩
  | @cons c c' rs inside later ih =>
    obtain ⟨a, cs, shape⟩ := List.exists_cons_of_ne_nil inside
    have next := next_of_cons shape
    rw [next] at ih last ⊢
    have last' : ∀ r ∈ rs.getLast?, ∃ t, r = .ok t := by
      intro r hr
      refine last r ?_
      rw [List.getLast?_cons, Option.mem_def.mp hr]
      rfl
    obtain ⟨p, rest, line, nonempty, lexes⟩ := ih last'
    have rest : (Fragment.scan a cs).rest = p ++ c'.rest := rest
    have token : p = [] → ∃ t, (Fragment.scan a cs).lexed c.skip.line = .ok t := by
      intro empty
      obtain rfl : rs = [] := not_not.mp fun ne => nonempty ne empty
      exact last _ rfl
    obtain ⟨front, read, same⟩ := scan_replace rest token stop
    have whole := Fragment.scan_text_append_rest a cs
    rw [read, rest] at whole
    obtain ⟨t, before, lines, skip⟩ := skip_of_skip shape
    have shape' : (Cursor.mk (t ++ a :: (front ++ (p ++ text))) c.line).skip.rest =
        a :: (front ++ (p ++ text)) := congrArg Cursor.rest (skip _)
    have cons := @of_cons _ ⟨text, c'.line⟩ rs _ _ shape'
    rw [skip, same] at cons
    refine ⟨t ++ a :: (front ++ p), ?_, ?_, by simp, ?_⟩
    · rw [before, ← whole]
      simp
    · rw [line, Fragment.behind, read, lines]
      simp only [List.count_append, List.count_cons, Nat.add_assoc]
      omega
    · have text' : t ++ a :: (front ++ p) ++ text = t ++ a :: (front ++ (p ++ text)) := by simp
      rw [text']
      exact cons lexes

end Cursor

end DeoLang
