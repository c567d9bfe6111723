import DeoLang.Proofs.Token.Partition
import DeoLang.Token.Window

/-!
# Passing over tokens

* `Passes`: a window slides over tokens, and no error is handed over on the way.
* `tokensOf`, `errorsOf`: the tokens and the errors among results.
* `group_flatMap_results`, `flatMap_results_group`: joining tokens with the errors in front of them
  loses nothing.
* `Window.ofItems`: the window over items, the first of which is current.
* `Window.EndsOnce`, `Window.Ended`: the end of the source is the last of the items to come, or of
  these and the current one, and only the last.
* **`passes_ofSource_iff`**: from the start of a source a window passes over its tokens, up to the
  end, exactly when the results are these tokens and nothing else.
-/

namespace DeoLang

/-- The window slides over tokens without an error. -/
inductive Passes : Window → List Token → Window → Prop where
  | nil (w : Window) : Passes w [] w
  | cons {w w' : Window} {ts : List Token} : w.errors = [] → Passes w.slide ts w' →
      Passes w (w.current :: ts) w'

theorem Passes.cons_iff {w w' : Window} {t : Token} {ts : List Token} : Passes w (t :: ts) w' ↔
    t = w.current ∧ w.errors = [] ∧ Passes w.slide ts w' := by
  constructor
  · rintro (_ | ⟨quiet, rest⟩)
    exact ⟨rfl, quiet, rest⟩
  · rintro ⟨rfl, quiet, rest⟩
    exact .cons quiet rest

/-! ## Items -/

namespace Item

theorem groupAfter_errors (es : List LexError) (errors : List LexError) (rest : List Lexed) :
    groupAfter [] errors (es.map .error ++ rest) = groupAfter [] (es.reverse ++ errors) rest := by
  induction es generalizing errors with
  | nil => rfl
  | cons e es ih =>
    rw [List.map_cons, List.cons_append, groupAfter, ih]
    simp

theorem group_errors_cons (es : List LexError) (t : Token) (rest : List Lexed) :
    group (es.map .error ++ .ok t :: rest) = ⟨es, t⟩ :: group rest := by
  rw [group, groupAfter_errors, groupAfter, groupAfter_eq_append, group]
  simp

/-- Joining goes along with what is done to each token and to each error. -/
theorem group_map {token : Token → Token} {error : LexError → LexError} {lexed : Lexed → Lexed}
    {item : Item → Item} (hok : ∀ t, lexed (.ok t) = .ok (token t))
    (herror : ∀ e, lexed (.error e) = .error (error e))
    (hitem : ∀ i, item i = ⟨i.errors.map error, token i.token⟩) (rs : List Lexed) :
    group (rs.map lexed) = (group rs).map item := by
  suffices h : ∀ errors : List LexError,
      groupAfter [] (errors.map error) (rs.map lexed) = (groupAfter [] errors rs).map item from h []
  induction rs with
  | nil => exact fun _ => rfl
  | cons r rs ih =>
    intro errors
    rw [List.map_cons]
    cases r with
    | error e =>
      rw [herror]
      exact ih (e :: errors)
    | ok t =>
      have first : item ⟨errors.reverse, t⟩ = ⟨(errors.map error).reverse, token t⟩ := by
        rw [hitem, List.map_reverse]
      rw [hok, groupAfter, groupAfter, groupAfter_eq_append, groupAfter_eq_append [_],
        List.map_append, ← ih []]
      simp [first]

end Item

/-- The results that an item stands for. -/
def Item.results (i : Item) : List Lexed :=
  i.errors.map .error ++ [.ok i.token]

theorem group_flatMap_results (items : List Item) (rest : List Lexed) :
    Item.group (items.flatMap Item.results ++ rest) = items ++ Item.group rest := by
  induction items with
  | nil => rfl
  | cons i items ih =>
    rw [List.flatMap_cons, Item.results, List.append_assoc, List.append_assoc,
      List.singleton_append, Item.group_errors_cons, ih]
    rfl

/-- Results that end with a token are those of the items that they are joined to. -/
theorem flatMap_results_group (rs : List Lexed) (t : Token) :
    (Item.group (rs ++ [.ok t])).flatMap Item.results = rs ++ [.ok t] := by
  suffices h : ∀ errors : List LexError,
      (Item.groupAfter [] errors (rs ++ [.ok t])).flatMap Item.results =
        errors.reverse.map .error ++ (rs ++ [.ok t]) from h []
  induction rs with
  | nil =>
    intro errors
    simp [Item.groupAfter, Item.results]
  | cons r rs ih =>
    intro errors
    rw [List.cons_append]
    cases r with
    | error e =>
      rw [Item.groupAfter, ih]
      simp
    | ok u =>
      rw [Item.groupAfter, Item.groupAfter_eq_append, List.flatMap_append, ih]
      simp [Item.results]

/-! ## The tokens and the errors among results -/

/-- The token that a result stands for. -/
def Lexed.token? : Lexed → Option Token
  | .ok t => some t
  | .error _ => none

/-- The error that a result stands for. -/
def Lexed.error? : Lexed → Option LexError
  | .ok _ => none
  | .error e => some e

/-- The tokens among results. -/
def tokensOf (rs : List Lexed) : List Token :=
  rs.filterMap Lexed.token?

/-- The errors among results. -/
def errorsOf (rs : List Lexed) : List LexError :=
  rs.filterMap Lexed.error?

theorem tokensOf_map_error (es : List LexError) : tokensOf (es.map .error) = [] := by
  simp [tokensOf, List.filterMap_map, Function.comp_def, Lexed.token?]

theorem tokensOf_append (a b : List Lexed) : tokensOf (a ++ b) = tokensOf a ++ tokensOf b :=
  List.filterMap_append

theorem tokensOf_flatMap_results (items : List Item) :
    tokensOf (items.flatMap Item.results) = items.map Item.token := by
  induction items with
  | nil => rfl
  | cons i items ih =>
    rw [List.flatMap_cons, tokensOf_append, ih, Item.results, tokensOf_append, tokensOf_map_error]
    rfl

theorem errorsOf_flatMap_results (items : List Item) :
    errorsOf (items.flatMap Item.results) = items.flatMap Item.errors := by
  induction items with
  | nil => rfl
  | cons i items ih =>
    have all : (i.errors.map Except.error).filterMap Lexed.error? = i.errors := by
      simp [List.filterMap_map, Function.comp_def, Lexed.error?]
    rw [errorsOf] at ih
    rw [errorsOf, List.flatMap_cons, List.filterMap_append, ih, Item.results,
      List.filterMap_append, all]
    simp [Lexed.error?]

/-- The item of a token without errors in front of it. -/
def Item.quiet (t : Token) : Item :=
  ⟨[], t⟩

theorem flatMap_results_quiet (ts : List Token) :
    (ts.map Item.quiet).flatMap Item.results = ts.map .ok := by
  induction ts with
  | nil => rfl
  | cons t ts ih => rw [List.map_cons, List.flatMap_cons, ih]; rfl

theorem group_map_ok (ts : List Token) : Item.group (ts.map .ok) = ts.map Item.quiet := by
  have h := group_flatMap_results (ts.map Item.quiet) []
  rw [flatMap_results_quiet, List.append_nil] at h
  exact h.trans (List.append_nil _)

/-! ## The items of a window -/

theorem exists_append_singleton_eq_cons {α : Type} (as : List α) (a : α) :
    ∃ b bs, as ++ [a] = b :: bs :=
  List.exists_cons_of_ne_nil (List.append_ne_nil_of_right_ne_nil as (List.cons_ne_nil a []))

namespace Window

/-- The items that have not been current. -/
def items (w : Window) : List Item :=
  w.ahead :: w.queue

/-- The window over items, the first of which is current. Behind the last one the end repeats. -/
def ofItems : List Item → Window
  | [] => ⟨Token.ending 1, ⟨[], Token.ending 1⟩, []⟩
  | [i] => ⟨i.token, ⟨[], Token.ending i.token.line⟩, []⟩
  | i :: j :: rest => ⟨i.token, j, rest⟩

@[simp] theorem current_ofItems (i : Item) (rest : List Item) :
    (ofItems (i :: rest)).current = i.token := by
  cases rest <;> rfl

@[simp] theorem errors_ofItems_singleton (i : Item) : (ofItems [i]).errors = [] := rfl

@[simp] theorem errors_ofItems (i j : Item) (rest : List Item) :
    (ofItems (i :: j :: rest)).errors = j.errors := rfl

@[simp] theorem slide_ofItems_singleton (i : Item) :
    (ofItems [i]).slide = ofItems [⟨[], Token.ending i.token.line⟩] := rfl

@[simp] theorem slide_ofItems (i j : Item) (rest : List Item) :
    (ofItems (i :: j :: rest)).slide = ofItems (j :: rest) := by
  cases rest <;> rfl

/-- The end of the source stands behind all other items, and only there. -/
def EndsOnce (w : Window) : Prop :=
  ∃ front last, w.items = front ++ [last] ∧ last.token.terminal = .ending ∧
    ∀ i ∈ front, i.token.terminal ≠ .ending

/-- The end of the source is the last item in front of the window, and only the last. -/
def Ended (w : Window) : Prop :=
  ∃ front last, w = ofItems (front ++ [last]) ∧ last.token.terminal = .ending ∧
    ∀ i ∈ front, i.token.terminal ≠ .ending

theorem slide_eq_ofItems (w : Window) : w.slide = ofItems w.items := by
  obtain ⟨current, ahead, queue⟩ := w
  cases queue <;> rfl

theorem current_slide (w : Window) : w.slide.current = w.ahead.token := by
  unfold slide
  split <;> rfl

theorem slide_of_items {w : Window} {i j : Item} {rest : List Item} (h : w.items = i :: j :: rest) :
    w.slide = ⟨i.token, j, rest⟩ := by
  rw [slide_eq_ofItems, h, ofItems]

theorem slide_of_items_singleton {w : Window} {i : Item} (h : w.items = [i]) :
    w.slide = ⟨i.token, ⟨[], Token.ending i.token.line⟩, []⟩ := by
  rw [slide_eq_ofItems, h, ofItems]

theorem eq_quiet_of_errors {w : Window} (h : w.errors = []) {i : Item} {rest : List Item}
    (items : w.items = i :: rest) : i = .quiet i.token := by
  rw [errors, (List.cons.inj items).1] at h
  rw [Item.quiet, ← h]

theorem Ended.endsOnce {w : Window} (h : w.Ended) : w.EndsOnce := by
  obtain ⟨front, last, rfl, ending, others⟩ := h
  cases front with
  | nil => exact ⟨[], ⟨[], Token.ending last.token.line⟩, rfl, rfl, by simp⟩
  | cons i front =>
    obtain ⟨j, rest, items⟩ := exists_append_singleton_eq_cons front last
    refine ⟨front, last, ?_, ending, fun k hk => others k (List.mem_cons_of_mem i hk)⟩
    rw [List.cons_append, items]
    rfl

theorem EndsOnce.ended_slide {w : Window} (h : w.EndsOnce) : w.slide.Ended := by
  obtain ⟨front, last, items, ending, others⟩ := h
  exact ⟨front, last, by rw [slide_eq_ofItems, items], ending, others⟩

theorem EndsOnce.slide {w : Window} (h : w.EndsOnce) : w.slide.EndsOnce :=
  h.ended_slide.endsOnce

theorem Ended.slide {w : Window} (h : w.Ended) : w.slide.Ended :=
  h.endsOnce.ended_slide

end Window

theorem passes_of_items {w : Window} {ts : List Token} {last : Token}
    (h : w.items = ts.map Item.quiet ++ [.quiet last]) : Passes w (w.current :: (ts ++ [last]))
      ⟨Token.ending last.line, ⟨[], Token.ending last.line⟩, []⟩ := by
  induction ts generalizing w with
  | nil =>
    refine .cons (by rw [Window.errors, (List.cons.inj h).1]; rfl) ?_
    rw [Window.slide_of_items_singleton h]
    exact .cons rfl (.nil _)
  | cons t ts ih =>
    refine .cons (by rw [Window.errors, (List.cons.inj h).1]; rfl) ?_
    obtain ⟨j, rest, items⟩ := exists_append_singleton_eq_cons (ts.map Item.quiet) (.quiet last)
    rw [List.map_cons, List.cons_append, items] at h
    rw [Window.slide_of_items h]
    exact ih (w := ⟨t, j, rest⟩) items.symm

/-- A window that passes over tokens and the end has had no errors in front of them. -/
theorem items_of_passes {w w' : Window} {ts : List Token} {last : Token}
    (h : Passes w (w.current :: (ts ++ [last])) w') (once : w.EndsOnce)
    (ending : last.terminal = .ending) (others : ∀ t ∈ ts, t.terminal ≠ .ending) :
    w.items = ts.map Item.quiet ++ [.quiet last] := by
  induction ts generalizing w with
  | nil =>
    obtain ⟨-, quiet, rest⟩ := Passes.cons_iff.mp h
    obtain ⟨rfl, -⟩ := Passes.cons_iff.mp rest
    obtain ⟨front, final, items, -, tokens⟩ := once
    cases front with
    | nil =>
      rw [Window.slide_of_items_singleton items, items, Window.eq_quiet_of_errors quiet items]
      rfl
    | cons i front =>
      -- the item behind the current one is not the end yet
      refine absurd ?_ (tokens i List.mem_cons_self)
      obtain ⟨j, more, shape⟩ := exists_append_singleton_eq_cons front final
      rw [List.cons_append, shape] at items
      rwa [Window.slide_of_items items] at ending
  | cons t ts ih =>
    obtain ⟨-, quiet, rest⟩ := Passes.cons_iff.mp h
    obtain ⟨rfl, -⟩ := Passes.cons_iff.mp rest
    obtain ⟨head, later⟩ := List.forall_mem_cons.mp others
    have items := ih rest once.slide later
    obtain ⟨front, final, all, isEnding, -⟩ := once
    cases front with
    | nil =>
      rw [Window.slide_of_items_singleton all] at head
      exact absurd isEnding head
    | cons i front =>
      obtain ⟨j, more, shape⟩ := exists_append_singleton_eq_cons front final
      rw [List.cons_append, shape] at all
      have slide := Window.slide_of_items all
      rw [slide] at items ⊢
      rw [all, List.map_cons, List.cons_append, ← items, ← Window.eq_quiet_of_errors quiet all]
      rfl

/-! ## The items of a source -/

/-- The results of a source end with the end, which stands nowhere else among them. -/
theorem exists_results_eq (source : String) : ∃ (rs : List Lexed) (line : Nat),
    (Cursor.ofSource source).results = rs ++ [.ok (Token.ending line)] ∧
      ∀ t, .ok t ∈ rs → t.terminal ≠ .ending := by
  obtain ⟨pieces, last, partition⟩ := exists_isPartition (Cursor.ofSource source)
  refine ⟨_, _, partition.results, fun t ht => ?_⟩
  obtain ⟨p, hp, result⟩ := List.mem_map.mp ht
  exact (partition.token p hp t result).1

theorem flatMap_results_ofSource (source : String) :
    (Item.group (Cursor.ofSource source).results).flatMap Item.results =
      (Cursor.ofSource source).results := by
  obtain ⟨rs, line, results, -⟩ := exists_results_eq source
  rw [results, flatMap_results_group]

theorem exists_group_eq (source : String) : ∃ (front : List Item) (last : Item),
    Item.group (Cursor.ofSource source).results = front ++ [last] ∧
      last.token.terminal = .ending ∧ ∀ i ∈ front, i.token.terminal ≠ .ending := by
  obtain ⟨rs, line, results, others⟩ := exists_results_eq source
  have joined := flatMap_results_ofSource source
  rcases List.eq_nil_or_concat (Item.group (Cursor.ofSource source).results) with
    empty | ⟨front, last, shape⟩
  · rw [empty, results] at joined
    simp at joined
  rw [List.concat_eq_append] at shape
  rw [shape, List.flatMap_append, List.flatMap_singleton, Item.results, ← List.append_assoc,
    results] at joined
  obtain ⟨before, token⟩ := List.append_inj' joined rfl
  refine ⟨front, last, shape, ?_, fun i hi => others i.token ?_⟩
  · simp only [List.cons.injEq, Except.ok.injEq, and_true] at token
    rw [token]
    rfl
  · rw [← before]
    exact List.mem_append_left _ (List.mem_flatMap.mpr ⟨i, hi, by simp [Item.results]⟩)

/-- The window in front of a source, one slide further on: the first place still shows an end. -/
theorem exists_slide_ofSource (source : String) : ∃ w : Window,
    (Window.ofSource source).slide = w ∧ w.current = Token.ending 1 ∧ w.EndsOnce ∧
      w.items = Item.group (Cursor.ofSource source).results := by
  obtain ⟨front, last, shape, ending, others⟩ := exists_group_eq source
  obtain ⟨i, rest, items⟩ := exists_append_singleton_eq_cons front last
  refine ⟨⟨Token.ending 1, i, rest⟩, ?_, rfl, ⟨front, last, items.symm, ending, others⟩, ?_⟩
  · refine Window.slide_of_items (i := ⟨[], Token.ending 1⟩) ?_
    rw [Window.items, Window.ofSource, shape, items]
  · rw [shape, items]
    rfl

/-- **The window of a source passes over tokens and the end exactly when the source consists of
them.** Two tokens for the end come first, which stand for nothing in the source. -/
theorem passes_ofSource_iff (source : String) {ts : List Token} {last : Token}
    (others : ∀ t ∈ ts, t.terminal ≠ .ending) (ending : last.terminal = .ending) :
    (∃ w, Passes (Window.ofSource source)
      (Token.ending 1 :: Token.ending 1 :: (ts ++ [last])) w) ↔
    (Cursor.ofSource source).results = ts.map .ok ++ [.ok last] := by
  obtain ⟨v, slide, current, once, items⟩ := exists_slide_ofSource source
  have start : ∀ w, Passes (Window.ofSource source)
      (Token.ending 1 :: Token.ending 1 :: (ts ++ [last])) w ↔
        Passes v (v.current :: (ts ++ [last])) w := by
    intro w
    rw [Passes.cons_iff, slide, current]
    exact ⟨fun h => h.2.2, fun h => ⟨rfl, rfl, h⟩⟩
  simp only [start]
  constructor
  · rintro ⟨w, passes⟩
    have quiet := items_of_passes passes once ending others
    have tokens := flatMap_results_ofSource source
    rw [← items, quiet, List.flatMap_append, flatMap_results_quiet] at tokens
    exact tokens.symm
  · intro tokens
    refine ⟨_, passes_of_items ?_⟩
    have all := group_map_ok (ts ++ [last])
    rw [List.map_append, List.map_append] at all
    rw [items, tokens]
    exact all

end DeoLang
