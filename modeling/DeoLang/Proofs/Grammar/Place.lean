import Mathlib
import DeoLang.Proofs.Session.Parse
import DeoLang.Proofs.Token.Written

/-!
# Places in a program

* `Expectation`: what the grammar can ask for, with its terminals and its name in messages.
* `Place`, `Place.next?`, `Place.read`: where in a program a reader stands, and where tokens lead.
* `ProgramTree.read`, `Leads.of_read`: the tokens that lead from the top to behind the end are
  those of programs.
* `Place.read_completion`: from every place something leads behind the end.
* `Viable`: tokens are the first ones of some source that the grammar accepts.
* **`viable_iff`**: tokens are viable exactly when they lead somewhere.
-/

namespace DeoLang

/-- What the grammar can ask for. -/
inductive Expectation where
  | declaration
  | opening
  | statement
  | expression
  | comma
  deriving Repr, DecidableEq

namespace Expectation

/-- The terminals that fulfil an expectation. The declarations can end, and so can the statements of
a body. -/
def terminals : Expectation → List Terminal
  | declaration => [.keyword .main, .ending]
  | opening => [.punct .braceOpen]
  | statement => [.keyword .deo, .punct .braceOpen, .punct .braceClose]
  | expression => [.integer, .character]
  | comma => [.punct .comma]

/-- How a message about a token names what was expected. At the end of the source a body lacks
nothing but its brace. -/
def describe (got : Terminal) : Expectation → String
  | declaration => "declaration"
  | opening => (Terminal.punct .braceOpen).describe
  | statement => if got = .ending then (Terminal.punct .braceClose).describe else "statement"
  | expression => "expression"
  | comma => (Terminal.punct .comma).describe

end Expectation

/-- A place between two tokens of a program. In a body, `depth` blocks are open around it besides
that of the declaration. -/
inductive Place where
  | top
  | header
  | body (depth : Nat)
  | device (depth : Nat)
  | comma (depth : Nat)
  | value (depth : Nat)
  | finished
  deriving Repr, DecidableEq

namespace Place

/-- What the grammar asks for at a place. -/
def wants : Place → Option Expectation
  | top => some .declaration
  | header => some .opening
  | body _ => some .statement
  | device _ => some .expression
  | comma _ => some .comma
  | value _ => some .expression
  | finished => none

/-- The place behind a body. -/
def behind : Nat → Place
  | 0 => top
  | depth + 1 => body depth

/-- The place behind a token, if the grammar allows it and it has a value where it has to. -/
def next? : Place → Token → Option Place
  | top, t =>
    if t.terminal = .keyword .main then some header
    else if t.terminal = .ending then some finished
    else none
  | header, t => if t.terminal = .punct .braceOpen then some (body 0) else none
  | body depth, t =>
    if t.terminal = .keyword .deo then some (device depth)
    else if t.terminal = .punct .braceOpen then some (body (depth + 1))
    else if t.terminal = .punct .braceClose then some (behind depth)
    else none
  | device depth, t => if t.value?.isSome then some (comma depth) else none
  | comma depth, t => if t.terminal = .punct .comma then some (value depth) else none
  | value depth, t => if t.value?.isSome then some (body depth) else none
  | finished, _ => none

/-- The place behind tokens. -/
def read (p : Place) (ts : List Token) : Option Place :=
  ts.foldlM next? p

@[simp] theorem read_nil (p : Place) : p.read [] = some p := rfl

@[simp] theorem read_cons (p : Place) (t : Token) (ts : List Token) :
    p.read (t :: ts) = (p.next? t).bind (read · ts) := rfl

theorem read_append (p : Place) (ts us : List Token) :
    p.read (ts ++ us) = (p.read ts).bind (read · us) := by
  rw [read, List.foldlM_append]
  rfl

theorem read_append_singleton {p q : Place} {ts : List Token} (h : p.read ts = some q)
    (t : Token) : p.read (ts ++ [t]) = q.next? t := by
  rw [read_append, h]
  simp

theorem exists_ite_eq_some_iff {α : Type} {c : Prop} [Decidable c] {a : α} {o : Option α} :
    (∃ b, (if c then some a else o) = some b) ↔ c ∨ ∃ b, o = some b := by
  by_cases h : c <;> simp [h]

theorem exists_next?_iff {p : Place} {x : Expectation} (wants : p.wants = some x) (t : Token) :
    (∃ q, p.next? t = some q) ↔
      t.terminal ∈ x.terminals ∧ (x = .expression → ∃ w, t.value? = some w) := by
  have literal : (∃ w, t.value? = some w) → t.terminal ∈ Expectation.expression.terminals := by
    rintro ⟨w, value⟩
    simpa [Expectation.terminals, IsLiteral] using isLiteral_of_value? value
  cases p with
  | finished => cases wants
  | top | header | body | comma =>
    cases wants
    simp [next?, exists_ite_eq_some_iff, Expectation.terminals]
  | device | value =>
    cases wants
    simpa [next?, exists_ite_eq_some_iff, Option.isSome_iff_exists] using literal

end Place

/-! ## Programs lead behind the end -/

theorem BodyTree.read {ts : List Token} {body : List Stmt} (h : BodyTree ts body) (depth : Nat) :
    (Place.body depth).read ts = some (.body depth) := by
  induction h generalizing depth with
  | nil => rfl
  | deo keyword device comma value _ ih =>
    simp [Place.next?, keyword, device, comma, value, ih]
  | block opening _ closing _ ihi ihr =>
    simp [Place.next?, Place.behind, Place.read_append, opening, closing, ihi, ihr]

theorem ProgramTree.read {ts : List Token} {mains : List Block} (h : ProgramTree ts mains) :
    Place.top.read ts = some .top := by
  induction h with
  | nil => rfl
  | main keyword opening body closing _ ih =>
    simp [Place.next?, Place.behind, Place.read_append, keyword, opening, body.read, closing, ih]

/-! ## What leads behind the end -/

/-- Tokens that complete a program from a place on, its end included. -/
inductive Leads : Place → List Token → Prop where
  | finished : Leads .finished []
  | top {e : Token} {ts : List Token} {mains : List Block} : ProgramTree ts mains →
      e.terminal = .ending → Leads .top (ts ++ [e])
  | header {o : Token} {ts : List Token} : o.terminal = .punct .braceOpen → Leads (.body 0) ts →
      Leads .header (o :: ts)
  | body {depth : Nat} {c : Token} {inner ts : List Token} {stmts : List Stmt} :
      BodyTree inner stmts → c.terminal = .punct .braceClose → Leads (.behind depth) ts →
      Leads (.body depth) (inner ++ c :: ts)
  | device {depth : Nat} {d : Token} {x : Word} {ts : List Token} : d.value? = some x →
      Leads (.comma depth) ts → Leads (.device depth) (d :: ts)
  | comma {depth : Nat} {c : Token} {ts : List Token} : c.terminal = .punct .comma →
      Leads (.value depth) ts → Leads (.comma depth) (c :: ts)
  | value {depth : Nat} {v : Token} {y : Word} {ts : List Token} : v.value? = some y →
      Leads (.body depth) ts → Leads (.value depth) (v :: ts)

namespace Leads

variable {depth : Nat} {t : Token} {ts : List Token}

theorem main (keyword : t.terminal = .keyword .main) (h : Leads .header ts) :
    Leads .top (t :: ts) := by
  cases h with
  | header opening rest =>
    cases rest with
    | body inner closing rest =>
      cases rest with
      | top later ending =>
        have whole := Leads.top (.main keyword opening inner closing later) ending
        simpa using whole

theorem deo (keyword : t.terminal = .keyword .deo) (h : Leads (.device depth) ts) :
    Leads (.body depth) (t :: ts) := by
  cases h with
  | device device rest =>
    cases rest with
    | comma comma rest =>
      cases rest with
      | value value rest =>
        cases rest with
        | body inner closing rest =>
          exact .body (.deo keyword device comma value inner) closing rest

theorem block (opening : t.terminal = .punct .braceOpen) (h : Leads (.body (depth + 1)) ts) :
    Leads (.body depth) (t :: ts) := by
  cases h with
  | body inner closing rest =>
    cases rest with
    | body later last rest =>
      have whole := Leads.body (.block opening inner closing later) last rest
      simpa using whole

theorem of_next? {p q : Place} (next : p.next? t = some q) (h : Leads q ts) :
    Leads p (t :: ts) := by
  cases p with
  | top =>
    rw [Place.next?] at next
    split at next
    · next keyword => cases next; exact h.main keyword
    split at next
    · next ending =>
      cases next
      cases h
      exact .top .nil ending
    · cases next
  | header =>
    rw [Place.next?] at next
    split at next
    · next opening => cases next; exact .header opening h
    · cases next
  | body depth =>
    rw [Place.next?] at next
    split at next
    · next keyword => cases next; exact h.deo keyword
    split at next
    · next opening => cases next; exact h.block opening
    split at next
    · next closing => cases next; exact .body .nil closing h
    · cases next
  | device depth =>
    rw [Place.next?] at next
    split at next
    · next value =>
      obtain ⟨x, value⟩ := Option.isSome_iff_exists.mp value
      cases next
      exact .device value h
    · cases next
  | comma depth =>
    rw [Place.next?] at next
    split at next
    · next comma => cases next; exact .comma comma h
    · cases next
  | value depth =>
    rw [Place.next?] at next
    split at next
    · next value =>
      obtain ⟨y, value⟩ := Option.isSome_iff_exists.mp value
      cases next
      exact .value value h
    · cases next
  | finished => cases next

/-- **What leads behind the end completes a program.** -/
theorem of_read {p : Place} (h : p.read ts = some .finished) : Leads p ts := by
  induction ts generalizing p with
  | nil => cases h; exact .finished
  | cons t ts ih =>
    rw [Place.read_cons] at h
    obtain ⟨q, next, rest⟩ := Option.bind_eq_some_iff.mp h
    exact (ih rest).of_next? next

end Leads

/-- **What leads from the top back to the top is a program.** -/
theorem exists_programTree_of_read {ts : List Token} (h : Place.top.read ts = some .top) :
    ∃ mains, ProgramTree ts mains := by
  have whole : Place.top.read (ts ++ [Token.ending 0]) = some .finished :=
    Place.read_append_singleton h _
  generalize split : ts ++ [Token.ending 0] = us at whole
  cases Leads.of_read whole with
  | top tree =>
    obtain ⟨rfl, -⟩ := List.append_inj' split rfl
    exact ⟨_, tree⟩

/-! ## Completions -/

/-- A text of a terminal. -/
def Terminal.sampleText : Terminal → String
  | punct p => String.ofList [p.char]
  | identifier => "a"
  | integer => "0"
  | character => "'a'"
  | keyword k => k.text
  | ending => "<eof>"

/-- A token of a terminal. -/
def Terminal.sample (t : Terminal) : Token :=
  ⟨t, t.sampleText, 0⟩

@[simp] theorem Terminal.terminal_sample (t : Terminal) : t.sample.terminal = t := rfl

theorem Terminal.spelled_sample {t : Terminal} (ne : t ≠ .ending) : t.sample.Spelled := by
  cases t with
  | punct p =>
    have spells := Spells.punct p
    rwa [← String.toList_ofList (l := [p.char])] at spells
  | identifier =>
    have spells : Spells .identifier ['a'] :=
      .identifier (by simp [IsLetter]) (by simp) fun k => by cases k <;> decide
    exact spells
  | integer =>
    have spells : Spells .integer ['0'] := .decimal ⟨by simp, by simp [Base.Digit]⟩
    exact spells
  | character =>
    have spells : Spells .character ['\'', 'a', '\''] :=
      .character (.plain (by decide)) (by decide)
    exact spells
  | keyword k => exact .keyword k
  | ending => exact absurd rfl ne

theorem Terminal.exists_value?_sample {t : Terminal} (h : IsLiteral t) :
    ∃ w, t.sample.value? = some w := by
  rcases h with rfl | rfl
  · exact ⟨0, by cbv⟩
  · exact ⟨97, by cbv⟩

namespace Place

/-- What closes a body, the `depth` blocks around it and the program. -/
def closing (depth : Nat) : List Terminal :=
  List.replicate (depth + 1) (.punct .braceClose) ++ [.ending]

/-- Terminals that complete a program from a place on. -/
def completion : Place → List Terminal
  | top => [.ending]
  | header => .punct .braceOpen :: closing 0
  | body depth => closing depth
  | device depth => .integer :: .punct .comma :: .integer :: closing depth
  | comma depth => .punct .comma :: .integer :: closing depth
  | value depth => .integer :: closing depth
  | finished => []

theorem read_closing (depth : Nat) :
    (body depth).read ((closing depth).map Terminal.sample) = some finished := by
  induction depth with
  | zero => rfl
  | succ depth ih =>
    rw [closing, List.replicate_succ, List.cons_append, List.map_cons, read_cons]
    exact ih

/-- **From every place something leads behind the end.** -/
theorem read_completion (p : Place) :
    p.read (p.completion.map Terminal.sample) = some finished := by
  obtain ⟨w, value⟩ := Terminal.exists_value?_sample (.inl rfl)
  cases p <;> simp [completion, next?, value, read_closing]

theorem next?_plain (p : Place) (t : Token) : p.next? t.plain = p.next? t := by
  cases p <;> rfl

theorem read_map_plain (p : Place) (ts : List Token) : p.read (ts.map Token.plain) = p.read ts := by
  induction ts generalizing p with
  | nil => rfl
  | cons t ts ih =>
    rw [List.map_cons, read_cons, read_cons, next?_plain]
    simp only [ih]

end Place

/-! ## Viable tokens -/

/-- The tokens are the first ones, apart from their lines, of a source that derives from the grammar
and whose literals have values. The token for the end counts as the last one of a source. -/
def Viable (ts : List Token) : Prop :=
  ∃ source us, HasTokens source us ∧ IsProgram (us.map Token.terminal) ∧ LiteralsValued us ∧
    ts.map Token.plain <+: us.map Token.plain ++ [Token.ending 0]

theorem Viable.of_prefix {ts us : List Token} (h : Viable us) (start : ts <+: us) : Viable ts := by
  obtain ⟨source, all, tokens, derives, valued, first⟩ := h
  exact ⟨source, all, tokens, derives, valued, (start.map Token.plain).trans first⟩

theorem Viable.exists_read {ts : List Token} (h : Viable ts) : ∃ p, Place.top.read ts = some p := by
  obtain ⟨source, us, -, derives, valued, first⟩ := h
  obtain ⟨mains, tree⟩ := exists_programTree_iff.mpr ⟨derives, valued⟩
  have whole : Place.top.read (us.map Token.plain ++ [Token.ending 0]) = some .finished := by
    rw [Place.read_append, Place.read_map_plain, tree.read]
    rfl
  obtain ⟨rest, split⟩ := first
  rw [← split, Place.read_append, Place.read_map_plain] at whole
  obtain ⟨p, read, -⟩ := Option.bind_eq_some_iff.mp whole
  exact ⟨p, read⟩

/-- A token that can stand in a source. -/
def Token.Lexical (t : Token) : Prop :=
  t.Spelled ∨ t.plain = Token.ending 0

theorem Token.Lexical.spelled {t : Token} (h : t.Lexical) (ne : t.terminal ≠ .ending) :
    t.Spelled :=
  h.resolve_right fun ending => ne (congrArg Token.terminal ending)

theorem Token.Lexical.plain_eq {t : Token} (h : t.Lexical) (ending : t.terminal = .ending) :
    t.plain = Token.ending 0 := by
  refine h.resolve_left fun spelled => ?_
  rw [Token.Spelled, ending] at spelled
  cases spelled

theorem Terminal.lexical_sample (t : Terminal) : t.sample.Lexical := by
  by_cases ending : t = .ending
  · exact .inr (by rw [ending]; rfl)
  · exact .inl (spelled_sample ending)

/-- **Tokens that can stand in a source are viable exactly when they lead somewhere.** -/
theorem viable_iff {ts : List Token} (lexical : ∀ t ∈ ts, t.Lexical) :
    Viable ts ↔ ∃ p, Place.top.read ts = some p := by
  refine ⟨Viable.exists_read, fun ⟨p, read⟩ => ?_⟩
  have whole : Place.top.read (ts ++ p.completion.map Terminal.sample) = some .finished := by
    rw [Place.read_append, read]
    exact p.read_completion
  have all : ∀ t ∈ ts ++ p.completion.map Terminal.sample, t.Lexical :=
    List.forall_mem_append.mpr ⟨lexical, List.forall_mem_map.mpr fun t _ => t.lexical_sample⟩
  generalize split : ts ++ p.completion.map Terminal.sample = vs at whole all
  cases Leads.of_read whole with
  | @top e us mains tree ending =>
    obtain ⟨tokens, last⟩ := List.forall_mem_append.mp all
    have spelled : ∀ t ∈ us, t.Spelled := fun t ht => (tokens t ht).spelled (tree.ne_ending t ht)
    obtain ⟨us', line, results, same⟩ := Cursor.exists_results_written spelled 1
    -- the tokens that are read back stand on other lines, but they lead to the same place
    have read' : Place.top.read us' = some .top := by
      rw [← Place.read_map_plain, same, Place.read_map_plain, tree.read]
    obtain ⟨derives, valued⟩ := exists_programTree_iff.mp (exists_programTree_of_read read')
    have source : Cursor.ofSource (String.ofList (written us)) = ⟨written us, 1⟩ := by
      rw [Cursor.ofSource, String.toList_ofList]
    have plain := congrArg (List.map Token.plain) split
    rw [List.map_append, List.map_append, ← same, List.map_singleton,
      (last e (List.mem_singleton_self e)).plain_eq ending] at plain
    exact ⟨_, us', ⟨line, source ▸ results⟩, derives, valued, _, plain⟩

/-- **What a place asks for is what is viable there.** -/
theorem exists_viable_iff {ts : List Token} (lexical : ∀ t ∈ ts, t.Lexical) {p : Place}
    (read : Place.top.read ts = some p) {x : Expectation} (wants : p.wants = some x)
    (k : Terminal) : (∃ u : Token, u.terminal = k ∧ Viable (ts ++ [u])) ↔ k ∈ x.terminals := by
  constructor
  · rintro ⟨u, rfl, viable⟩
    obtain ⟨q, next⟩ := viable.exists_read
    rw [Place.read_append_singleton read] at next
    exact ((Place.exists_next?_iff wants u).mp ⟨q, next⟩).1
  · intro mem
    have all : ∀ t ∈ ts ++ [k.sample], t.Lexical :=
      List.forall_mem_append.mpr ⟨lexical, List.forall_mem_singleton.mpr k.lexical_sample⟩
    refine ⟨k.sample, rfl, (viable_iff all).mpr ?_⟩
    rw [Place.read_append_singleton read]
    refine (Place.exists_next?_iff wants _).mpr ⟨mem, ?_⟩
    rintro rfl
    exact Terminal.exists_value?_sample (by simpa [Expectation.terminals, IsLiteral] using mem)

end DeoLang
