import Mathlib
import DeoLang.Proofs.Token.Passage

/-!
# What a window delivers

* `Delivery`, `Window.deliveries`: what the advances of a window do, one after the other.
* `Cursor.exists_take_token`: the lexer comes to a token after finitely many errors.
* `Window.Follows`: a window shows what a cursor has given. `Follows.slide` says that a slide keeps
  this up, and `Follows.exists_take` that the advances deliver what the cursor gives.
* `Delivers`: advances lose, repeat and reorder nothing.
* **`deliveries_ofSource`**: the advances of a fresh window deliver the results of the lexer.
-/

namespace DeoLang

/-- What an advance does: the token that it passes over, the errors that it hands over, and the
token that is current behind it. -/
structure Delivery where
  passed : Token
  errors : List LexError
  current : Token
  deriving Repr, DecidableEq

/-- The errors of a delivery and the token that has become current. -/
def Delivery.item (d : Delivery) : Item :=
  ⟨d.errors, d.current⟩

/-- What the next advances of a window do. -/
def Window.deliveries : Nat → Window → List Delivery
  | 0, _ => []
  | n + 1, w => ⟨w.current, w.errors, w.slide.current⟩ :: deliveries n w.slide

/-! ## The lexer -/

namespace Cursor

theorem take_add (m n : Nat) (c : Cursor) : take (m + n) c = take m c ++ take n (drop m c) := by
  induction m generalizing c with
  | zero => rw [Nat.zero_add]; rfl
  | succ m ih => rw [Nat.add_right_comm, take, ih]; rfl

/-- The lexer comes to a token after finitely many errors. Either it goes on behind the token, or
this is the end of the source. -/
theorem exists_take_token (c : Cursor) : ∃ (es : List LexError) (t : Token) (count : Nat),
    take count c = es.map .error ++ [.ok t] ∧
      (c.results = es.map .error ++ .ok t :: (drop count c).results ∨
        c.results = es.map .error ++ [.ok t] ∧ drop count c = ⟨[], t.line⟩) := by
  induction c using cursor_induction with
  | nil c h =>
    refine ⟨[], Token.ending c.skip.line, 1, ?_, .inr ⟨results_of_nil h, ?_⟩⟩
    · rw [take, next_of_nil h]; rfl
    · rw [drop, next_of_nil h]; rfl
  | cons c a cs h ih =>
    have next := next_of_cons h
    have results := results_of_cons h
    cases first : (Fragment.scan a cs).lexed c.skip.line with
    | ok t =>
      rw [first] at next results
      refine ⟨[], t, 1, ?_, .inl ?_⟩
      · rw [take, next]; rfl
      · rw [drop, next]; exact results
    | error e =>
      obtain ⟨es, t, count, taken, rest⟩ := ih
      rw [first] at next results
      refine ⟨e :: es, t, count + 1, ?_, ?_⟩
      · rw [take, next, taken]; rfl
      · rw [drop, next, results]
        rcases rest with rest | ⟨rest, ended⟩
        · exact .inl (by rw [rest]; rfl)
        · exact .inr ⟨by rw [rest]; rfl, ended⟩

end Cursor

/-! ## The window behind the lexer -/

namespace Window

/-- The window has in view what the cursor has given, and what the cursor is going to give comes
next. -/
def Follows (w : Window) (c : Cursor) : Prop :=
  w.queue = Item.group c.results ∨ w.queue = [] ∧ c = ⟨[], w.ahead.token.line⟩

theorem Follows.slide {w : Window} {c : Cursor} (h : w.Follows c) :
    ∃ count, c.take count = w.slide.ahead.results ∧ w.slide.Follows (c.drop count) := by
  obtain ⟨current, ahead, queue⟩ := w
  rcases h with items | ⟨empty, ended⟩
  · obtain ⟨es, t, count, taken, rest⟩ := c.exists_take_token
    refine ⟨count, ?_⟩
    rw [taken]
    dsimp only at items
    rcases rest with rest | ⟨rest, ended⟩
    · rw [rest, Item.group_errors_cons] at items
      rw [items]
      exact ⟨rfl, .inl rfl⟩
    · rw [rest, Item.group_errors_cons] at items
      rw [items]
      exact ⟨rfl, .inr ⟨rfl, ended⟩⟩
  · dsimp only at empty ended
    rw [empty, ended]
    refine ⟨1, Cursor.take_of_ended 1 _, .inr ⟨rfl, ?_⟩⟩
    rw [Cursor.drop, Cursor.next_of_nil rfl]
    rfl

theorem item_delivery (w : Window) :
    Delivery.item ⟨w.current, w.errors, w.slide.current⟩ = w.ahead := by
  rw [current_slide]
  rfl

theorem Follows.exists_take {w : Window} {c : Cursor} (h : w.Follows c) (n : Nat) :
    ∃ count, c.take count = ((deliveries n w.slide).map Delivery.item).flatMap Item.results := by
  induction n generalizing w c with
  | zero => exact ⟨0, rfl⟩
  | succ n ih =>
    obtain ⟨count, first, follows⟩ := h.slide
    obtain ⟨more, rest⟩ := ih follows
    refine ⟨count + more, ?_⟩
    rw [Cursor.take_add, first, rest, deliveries, List.map_cons, item_delivery, List.flatMap_cons]

theorem length_deliveries (n : Nat) (w : Window) : (deliveries n w).length = n := by
  induction n generalizing w with
  | zero => rfl
  | succ n ih => rw [deliveries, List.length_cons, ih]

theorem map_passed_deliveries (n : Nat) (w : Window) : (deliveries n w).map Delivery.passed =
    (w.current :: (deliveries n w).map Delivery.current).take n := by
  induction n generalizing w with
  | zero => rfl
  | succ n ih => rw [deliveries, List.map_cons, ih, List.map_cons, List.take_succ_cons]

end Window

/-! ## The deliveries of a fresh window -/

/-- The calls deliver the results `rs` of a lexer. The first call hands over nothing. -/
structure Delivers (calls : List Delivery) (rs : List Lexed) : Prop where
  /-- The tokens of the results come behind two that stand for nothing. -/
  passed : calls.map Delivery.passed =
    (Token.ending 1 :: Token.ending 1 :: tokensOf rs).take calls.length
  first : ∀ d ∈ calls.head?, d.errors = []
  /-- Each call but the first one makes one token current. -/
  current : calls.tail.map Delivery.current = tokensOf rs
  /-- The errors of such a call are those between its token and the token before, in order. -/
  located : ∀ k d, calls[k + 1]? = some d → ∃ before after,
    rs = before ++ d.errors.map .error ++ .ok d.current :: after ∧
      (tokensOf before).length = k ∧ ∀ e, before.getLast? ≠ some (.error e)
  /-- All calls together hand over each error once. -/
  once : calls.flatMap Delivery.errors = errorsOf rs

theorem getLast?_flatMap_results (items : List Item) (e : LexError) :
    (items.flatMap Item.results).getLast? ≠ some (.error e) := by
  rcases List.eq_nil_or_concat items with rfl | ⟨front, last, rfl⟩
  · simp
  · simp [Item.results]

theorem exists_flatMap_results_eq {items : List Item} {k : Nat} {i : Item}
    (h : items[k]? = some i) : ∃ before after,
      items.flatMap Item.results = before ++ i.errors.map .error ++ .ok i.token :: after ∧
        (tokensOf before).length = k ∧ ∀ e, before.getLast? ≠ some (.error e) := by
  obtain ⟨lt, rfl⟩ := List.getElem?_eq_some_iff.mp h
  refine ⟨(items.take k).flatMap Item.results, (items.drop (k + 1)).flatMap Item.results, ?_, ?_,
    getLast?_flatMap_results _⟩
  · have whole : items = items.take k ++ items[k] :: items.drop (k + 1) := by
      rw [← List.drop_eq_getElem_cons lt, List.take_append_drop]
    have results := congrArg (List.flatMap Item.results) whole
    rw [List.flatMap_append, List.flatMap_cons] at results
    rw [results, Item.results]
    simp
  · rw [tokensOf_flatMap_results, List.length_map, List.length_take_of_le (Nat.le_of_lt lt)]

/-- The delivery of the first call: a token that stands for nothing, in front of another one. -/
def Delivery.idle : Delivery :=
  ⟨Token.ending 1, [], Token.ending 1⟩

theorem Delivers.nil : Delivers [] [] where
  passed := rfl
  first := by simp
  current := rfl
  located := by simp
  once := rfl

theorem Delivers.cons {later : List Delivery} (passed : (.idle :: later).map Delivery.passed =
      (Token.ending 1 :: Token.ending 1 :: later.map Delivery.current).take (later.length + 1)) :
    Delivers (.idle :: later) ((later.map Delivery.item).flatMap Item.results) := by
  have tokens : tokensOf ((later.map Delivery.item).flatMap Item.results) =
      later.map Delivery.current := by
    rw [tokensOf_flatMap_results, List.map_map]
    rfl
  have errors : errorsOf ((later.map Delivery.item).flatMap Item.results) =
      later.flatMap Delivery.errors := by
    rw [errorsOf_flatMap_results, List.flatMap_map]
    rfl
  constructor
  · rw [passed, tokens, List.length_cons]
  · rintro d ⟨⟩
    rfl
  · rw [tokens, List.tail_cons]
  · intro k d hd
    rw [List.getElem?_cons_succ] at hd
    refine exists_flatMap_results_eq (i := d.item) ?_
    rw [List.getElem?_map, hd, Option.map_some]
  · rw [errors]
    rfl

theorem errorsOf_take_eq {c : Cursor} {count : Nat}
    (h : (tokensOf c.results).length ≤ (tokensOf (c.take count)).length) :
    errorsOf (c.take count) = errorsOf c.results := by
  rcases Nat.lt_or_ge count c.results.length with short | long
  · obtain ⟨pieces, last, partition⟩ := exists_isPartition c
    have rest := Cursor.take_add count (c.results.length - count) c
    have all := c.take_length_results_add 0
    rw [Nat.add_zero, List.replicate_zero, List.append_nil] at all
    rw [Nat.add_sub_cancel' (Nat.le_of_lt short), all] at rest
    rcases List.eq_nil_or_concat (Cursor.take (c.results.length - count) (c.drop count)) with
      empty | ⟨more, final, shape⟩
    · rw [rest, empty, List.append_nil]
    · -- the token for the end would be among the results that are still to come
      rw [shape, List.concat_eq_append, ← List.append_assoc, partition.results] at rest
      obtain ⟨before, ending⟩ := List.append_inj' rest rfl
      have longer : (tokensOf c.results).length =
          (tokensOf (c.take count)).length + (tokensOf more).length + 1 := by
        rw [partition.results, before]
        simp [tokensOf, Lexed.token?, Nat.add_assoc]
      omega
  · obtain ⟨n, rfl⟩ := Nat.exists_eq_add_of_le long
    rw [c.take_length_results_add, errorsOf, List.filterMap_append,
      List.filterMap_replicate_of_none rfl, List.append_nil]
    rfl

/-- Advances of a fresh window deliver what the lexer gives when it is asked often enough. -/
theorem exists_delivers (source : String) (n : Nat) : ∃ count,
    Delivers ((Window.ofSource source).deliveries n) ((Cursor.ofSource source).take count) := by
  cases n with
  | zero => exact ⟨0, .nil⟩
  | succ n =>
    have start : (Window.ofSource source).Follows (Cursor.ofSource source) := .inl rfl
    obtain ⟨count, taken⟩ := start.exists_take n
    have slid : (Window.ofSource source).slide.current = Token.ending 1 := by
      rw [Window.current_slide]
      rfl
    have first : (Window.ofSource source).deliveries (n + 1) =
        .idle :: (Window.ofSource source).slide.deliveries n := by
      rw [Window.deliveries, slid]
      rfl
    have passed := Window.map_passed_deliveries (n + 1) (Window.ofSource source)
    rw [first] at passed
    refine ⟨count, ?_⟩
    rw [first, taken]
    refine .cons ?_
    rw [Window.length_deliveries]
    exact passed

/-- **The advances of a fresh window deliver the results of the lexer.** Whatever errors stand
between the tokens, and however often the window advances, the tokens that it passes over are two
that stand for nothing and then those that the lexer gives, with the end over and over. Each error
is handed over once, in order, by the advance that makes the token behind it current. As soon as
the end is current, all errors of the source have been handed over. -/
theorem deliveries_ofSource (source : String) (n : Nat) :
    (∃ count, Delivers ((Window.ofSource source).deliveries n)
      ((Cursor.ofSource source).take count)) ∧
    ((Window.ofSource source).deliveries
      ((tokensOf (Cursor.ofSource source).results).length + 1 + n)).flatMap Delivery.errors =
        errorsOf (Cursor.ofSource source).results := by
  refine ⟨exists_delivers source n, ?_⟩
  obtain ⟨count, delivers⟩ :=
    exists_delivers source ((tokensOf (Cursor.ofSource source).results).length + 1 + n)
  rw [delivers.once]
  refine errorsOf_take_eq ?_
  rw [← delivers.current, List.length_map, List.length_tail, Window.length_deliveries]
  omega

/-- Two errors between two tokens. -/
example : ((Window.ofSource "\x7b @ $ \x7d").deliveries 3).map Delivery.errors =
    [[], [], [⟨.unknown '@', 1⟩, ⟨.unknown '$', 1⟩]] := by
  cbv

end DeoLang
