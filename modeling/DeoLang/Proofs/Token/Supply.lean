import DeoLang.Proofs.Token.Passage

/-!
# What a window has in front of it

* `Window.ended_ofSource`: the end of a source is the last of the items of its window, and only the
  last.
* `Cursor.pairwise_line_results`: the results of a source come in the order of their lines.
* `Window.Rising`: the same of the items of a window.
-/

namespace DeoLang

namespace Window

/-- A source starts with two ends that stand for nothing in it. -/
theorem ofSource_eq_ofItems (source : String) : ofSource source =
    ofItems (⟨[], Token.ending 1⟩ :: ⟨[], Token.ending 1⟩ ::
      Item.group (Cursor.ofSource source).results) := rfl

theorem slide_slide_ofSource (source : String) :
    (ofSource source).slide.slide = ofItems (Item.group (Cursor.ofSource source).results) := by
  obtain ⟨front, last, shape, -⟩ := exists_group_eq source
  obtain ⟨i, rest, items⟩ := exists_append_singleton_eq_cons front last
  rw [ofSource_eq_ofItems, shape, items, slide_ofItems, slide_ofItems]

/-! ## The end -/

theorem ended_ofSource (source : String) : (ofSource source).slide.slide.Ended := by
  obtain ⟨front, last, shape, ending, others⟩ := exists_group_eq source
  exact ⟨front, last, by rw [slide_slide_ofSource, shape], ending, others⟩

theorem Ended.exists_eq_of_check {w : Window} (h : w.Ended) (atEnd : w.check .ending = true) :
    ∃ last, w = ofItems [last] ∧ last.token.terminal = .ending := by
  obtain ⟨front, last, rfl, ending, others⟩ := h
  cases front with
  | nil => exact ⟨last, rfl, ending⟩
  | cons i front =>
    rw [check, List.cons_append, current_ofItems, decide_eq_true_eq] at atEnd
    exact absurd atEnd (others i List.mem_cons_self)

theorem Ended.errors_of_check {w : Window} (h : w.Ended) (atEnd : w.check .ending = true) :
    w.errors = [] := by
  obtain ⟨last, rfl, -⟩ := h.exists_eq_of_check atEnd
  rfl

end Window

/-! ## Lines -/

namespace Cursor

/-- The results of a source come in the order of their lines, and none is in front of the cursor. -/
theorem pairwise_line_results (c : Cursor) : (c.results.map Lexed.line).Pairwise (· ≤ ·) ∧
    ∀ r ∈ c.results, c.line ≤ r.line := by
  induction c using cursor_induction with
  | nil c h =>
    obtain ⟨t, -, lines, -⟩ := c.skip_spec
    rw [results_of_nil h]
    simp only [List.map_cons, List.map_nil, List.pairwise_singleton, List.mem_singleton, forall_eq,
      true_and]
    exact lines ▸ Nat.le_add_right _ _
  | cons c a cs h ih =>
    obtain ⟨t, -, lines, -⟩ := c.skip_spec
    obtain ⟨sorted, above⟩ := ih
    have skipped : c.line ≤ c.skip.line := lines ▸ Nat.le_add_right _ _
    have later : ∀ r ∈ ((Fragment.scan a cs).behind c.skip.line).results, c.skip.line ≤ r.line :=
      fun r hr => Nat.le_trans (Nat.le_add_right _ _) (above r hr)
    rw [results_of_cons h, List.map_cons, List.pairwise_cons, Fragment.line_lexed]
    refine ⟨⟨List.forall_mem_map.mpr later, sorted⟩, List.forall_mem_cons.mpr ⟨?_, ?_⟩⟩
    · rwa [Fragment.line_lexed]
    · exact fun r hr => Nat.le_trans skipped (later r hr)

end Cursor

/-- The lines of the results that items stand for. -/
def Item.lines (items : List Item) : List Nat :=
  (items.flatMap Item.results).map Lexed.line

theorem Item.lines_cons (i : Item) (rest : List Item) :
    lines (i :: rest) = i.errors.map LexError.line ++ i.token.line :: lines rest := by
  simp only [lines, List.flatMap_cons, Item.results, List.map_append, List.map_map,
    List.append_assoc]
  rfl

namespace Window

/-- The items in front of the window are in the order of their lines, and none is behind the line
`last`. -/
def Rising (last : Nat) (w : Window) : Prop :=
  ∃ i rest, w = ofItems (i :: rest) ∧ (Item.lines (i :: rest)).Pairwise (· ≤ ·) ∧
    ∀ l ∈ Item.lines (i :: rest), l ≤ last

theorem rising_ofSource {source : String} {rs : List Lexed} {last : Nat}
    (results : (Cursor.ofSource source).results = rs ++ [.ok (Token.ending last)]) :
    (ofSource source).Rising last := by
  obtain ⟨sorted, above⟩ := (Cursor.ofSource source).pairwise_line_results
  have items := flatMap_results_ofSource source
  have below : ∀ r ∈ (Cursor.ofSource source).results, r.line ≤ last := by
    rw [results, List.map_append, List.map_singleton] at sorted
    rw [results]
    simp only [List.mem_append, List.mem_singleton]
    rintro r (earlier | rfl)
    · exact (List.pairwise_append.mp sorted).2.2 _ (List.mem_map_of_mem earlier) _
        (List.mem_singleton_self _)
    · exact Nat.le_refl _
  have first : 1 ≤ last := by
    have mem : .ok (Token.ending last) ∈ (Cursor.ofSource source).results := by simp [results]
    exact above _ mem
  refine ⟨_, _, ofSource_eq_ofItems source, ?_, ?_⟩
  · rw [Item.lines_cons, Item.lines_cons, Item.lines, items]
    simp only [List.map_nil, List.nil_append, List.pairwise_cons, List.mem_cons,
      List.forall_mem_map, forall_eq_or_imp]
    exact ⟨⟨Nat.le_refl _, above⟩, above, sorted⟩
  · rw [Item.lines_cons, Item.lines_cons, Item.lines, items]
    simp only [List.map_nil, List.nil_append, List.mem_cons, List.forall_mem_map, forall_eq_or_imp]
    exact ⟨first, first, below⟩

theorem Rising.slide {last : Nat} {w : Window} (h : w.Rising last) : w.slide.Rising last := by
  obtain ⟨i, rest, rfl, sorted, below⟩ := h
  rw [Item.lines_cons] at sorted below
  cases rest with
  | nil =>
    refine ⟨_, [], slide_ofItems_singleton i, by simp [Item.lines, Item.results], ?_⟩
    have last := below i.token.line (by simp)
    simpa [Item.lines, Item.results, Lexed.line, Token.ending] using last
  | cons j rest =>
    refine ⟨j, rest, slide_ofItems i j rest, ?_, fun l hl => below l (by simp [hl])⟩
    exact (List.pairwise_cons.mp (List.pairwise_append.mp sorted).2.1).2

theorem Rising.current_le {last : Nat} {w : Window} (h : w.Rising last) :
    w.current.line ≤ last := by
  obtain ⟨i, rest, rfl, -, below⟩ := h
  rw [current_ofItems]
  exact below _ (by simp [Item.lines_cons])

/-- The errors in front of a token are between the token before and the token itself. -/
theorem Rising.errors {last : Nat} {w : Window} (h : w.Rising last) :
    w.current.line ≤ w.slide.current.line ∧
      ∀ e ∈ w.errors, w.current.line ≤ e.line ∧ e.line ≤ w.slide.current.line := by
  obtain ⟨i, rest, rfl, sorted, -⟩ := h
  rw [Item.lines_cons] at sorted
  obtain ⟨first, later⟩ := List.pairwise_cons.mp (List.pairwise_append.mp sorted).2.1
  cases rest with
  | nil => exact ⟨Nat.le_refl _, by simp⟩
  | cons j rest =>
    rw [Item.lines_cons] at first later
    rw [slide_ofItems, current_ofItems, current_ofItems, errors_ofItems]
    refine ⟨first _ (by simp), fun e he => ⟨first _ ?_, ?_⟩⟩
    · exact List.mem_append_left _ (List.mem_map_of_mem he)
    · exact (List.pairwise_append.mp later).2.2 _ (List.mem_map_of_mem he) _ List.mem_cons_self

end Window

end DeoLang
