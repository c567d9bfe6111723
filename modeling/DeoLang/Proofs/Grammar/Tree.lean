import DeoLang.Proofs.Program.Outputs
import DeoLang.Token.Basic
import DeoLang.Token.Numeral

/-!
# The grammar and its trees

* `IsLiteral`, `IsBody`, `IsProgram`: the grammar, on terminals. Its rules are
  `Program := ('main' Block)*`, `Block := '{' Stmt* '}'`, `Stmt := Block | 'deo' Expr ',' Expr` and
  `Expr := integer | character`; a body is a `Stmt*`.
* `Token.value?`: the value of a literal.
* `BodyTree`, `BlockTree`, `ProgramTree`: the tree of a derivation, on tokens.
* **`exists_programTree_iff`**: tokens have a tree when their terminals derive from the grammar and
  their literals have values.
* `ProgramTree.count`, `ProgramTree.readFrom`: the main blocks and the outputs of a tree.
-/

namespace DeoLang

/-- `Expr := integer | character`. -/
def IsLiteral (t : Terminal) : Prop :=
  t = .integer ∨ t = .character

/-- `Stmt*`, with `Stmt := Block | 'deo' Expr ',' Expr` and `Block := '{' Stmt* '}'`. -/
inductive IsBody : List Terminal → Prop where
  | nil : IsBody []
  | deo {device value : Terminal} {rest : List Terminal} : IsLiteral device → IsLiteral value →
      IsBody rest → IsBody (.keyword .deo :: device :: .punct .comma :: value :: rest)
  | block {inner rest : List Terminal} : IsBody inner → IsBody rest →
      IsBody (.punct .braceOpen :: inner ++ .punct .braceClose :: rest)

/-- `Program := ('main' Block)*`. -/
inductive IsProgram : List Terminal → Prop where
  | nil : IsProgram []
  | main {body rest : List Terminal} : IsBody body → IsProgram rest →
      IsProgram (.keyword .main :: .punct .braceOpen :: body ++ .punct .braceClose :: rest)

/-- The value of a literal. -/
def Token.value? (t : Token) : Option Word :=
  match t.terminal with
  | .integer => (readInt t.lexeme).toOption
  | .character => charValue t.lexeme
  | _ => none

/-- Tokens that derive from `Stmt*`, and the statements of their derivation. A block has the line of
its opening brace. -/
inductive BodyTree : List Token → List Stmt → Prop where
  | nil : BodyTree [] []
  | deo {keyword device comma value : Token} {x y : Word} {rest : List Token} {body : List Stmt} :
      keyword.terminal = .keyword .deo → device.value? = some x →
      comma.terminal = .punct .comma → value.value? = some y → BodyTree rest body →
      BodyTree (keyword :: device :: comma :: value :: rest)
        (.deo (.literal x) (.literal y) :: body)
  | block {opening closing : Token} {inner rest : List Token} {stmts body : List Stmt} :
      opening.terminal = .punct .braceOpen → BodyTree inner stmts →
      closing.terminal = .punct .braceClose → BodyTree rest body →
      BodyTree (opening :: inner ++ closing :: rest) (.block opening.line stmts :: body)

/-- Tokens that derive from `Block`, and the block of their derivation. -/
inductive BlockTree : List Token → Block → Prop where
  | braces {opening closing : Token} {inner : List Token} {stmts : List Stmt} :
      opening.terminal = .punct .braceOpen → BodyTree inner stmts →
      closing.terminal = .punct .braceClose →
      BlockTree (opening :: inner ++ [closing]) ⟨opening.line, stmts⟩

/-- Tokens that derive from `('main' Block)*`, and the main blocks of their derivation. -/
inductive ProgramTree : List Token → List Block → Prop where
  | nil : ProgramTree [] []
  | main {keyword opening closing : Token} {body rest : List Token} {stmts : List Stmt}
      {later : List Block} :
      keyword.terminal = .keyword .main → opening.terminal = .punct .braceOpen →
      BodyTree body stmts → closing.terminal = .punct .braceClose → ProgramTree rest later →
      ProgramTree (keyword :: opening :: body ++ closing :: rest) (⟨opening.line, stmts⟩ :: later)

/-- The literals among tokens have values. -/
def LiteralsValued (ts : List Token) : Prop :=
  ∀ t ∈ ts, IsLiteral t.terminal → ∃ w, t.value? = some w

theorem BlockTree.body {ts rest : List Token} {b : Block} {body : List Stmt} (h : BlockTree ts b)
    (later : BodyTree rest body) : BodyTree (ts ++ rest) (.block b.line b.body :: body) := by
  obtain ⟨opening, inner, closing⟩ := h
  rw [List.append_assoc, List.singleton_append]
  exact .block opening inner closing later

theorem BlockTree.main {keyword : Token} {ts rest : List Token} {b : Block} {later : List Block}
    (h : BlockTree ts b) (isMain : keyword.terminal = .keyword .main)
    (tree : ProgramTree rest later) : ProgramTree (keyword :: ts ++ rest) (b :: later) := by
  obtain ⟨opening, inner, closing⟩ := h
  rw [List.cons_append, List.append_assoc, List.singleton_append]
  exact .main isMain opening inner closing tree

theorem isLiteral_of_value? {t : Token} {w : Word} (h : t.value? = some w) :
    IsLiteral t.terminal := by
  unfold Token.value? at h
  split at h
  · next e => exact .inl e
  · next e => exact .inr e
  · cases h

theorem BodyTree.isBody {ts : List Token} {body : List Stmt} (h : BodyTree ts body) :
    IsBody (ts.map Token.terminal) := by
  induction h with
  | nil => exact .nil
  | deo keyword device comma value _ ih =>
    simp only [List.map_cons, keyword, comma]
    exact .deo (isLiteral_of_value? device) (isLiteral_of_value? value) ih
  | block opening _ closing _ ihi ihr =>
    simp only [List.map_cons, List.map_append, opening, closing]
    exact .block ihi ihr

theorem ProgramTree.isProgram {ts : List Token} {mains : List Block} (h : ProgramTree ts mains) :
    IsProgram (ts.map Token.terminal) := by
  induction h with
  | nil => exact .nil
  | main keyword opening body closing _ ih =>
    simp only [List.map_cons, List.map_append, keyword, opening, closing]
    exact .main body.isBody ih

theorem IsBody.ending_not_mem {ks : List Terminal} (h : IsBody ks) : .ending ∉ ks := by
  induction h with
  | nil => simp
  | deo device value _ ih =>
    rcases device with rfl | rfl <;> rcases value with rfl | rfl <;> simp [ih]
  | block _ _ ihi ihr => simp [ihi, ihr]

theorem IsProgram.ending_not_mem {ks : List Terminal} (h : IsProgram ks) : .ending ∉ ks := by
  induction h with
  | nil => simp
  | main body _ ih => simp [body.ending_not_mem, ih]

/-- No token of a program stands for the end. -/
theorem ProgramTree.ne_ending {ts : List Token} {mains : List Block} (h : ProgramTree ts mains) :
    ∀ t ∈ ts, t.terminal ≠ .ending :=
  fun _ ht ending => h.isProgram.ending_not_mem (ending ▸ List.mem_map_of_mem ht)

theorem literalsValued_cons_of_value? {t : Token} {w : Word} (h : t.value? = some w)
    {ts : List Token} (later : LiteralsValued ts) : LiteralsValued (t :: ts) :=
  List.forall_mem_cons.mpr ⟨fun _ => ⟨w, h⟩, later⟩

theorem literalsValued_cons {t : Token} (h : ¬IsLiteral t.terminal) {ts : List Token} :
    LiteralsValued (t :: ts) ↔ LiteralsValued ts :=
  List.forall_mem_cons.trans (and_iff_right fun literal => absurd literal h)

theorem literalsValued_append {ts us : List Token} :
    LiteralsValued (ts ++ us) ↔ LiteralsValued ts ∧ LiteralsValued us :=
  List.forall_mem_append

theorem not_isLiteral_keyword {t : Token} {k : Keyword} (h : t.terminal = .keyword k) :
    ¬IsLiteral t.terminal := by
  simp [h, IsLiteral]

theorem not_isLiteral_punct {t : Token} {p : Punct} (h : t.terminal = .punct p) :
    ¬IsLiteral t.terminal := by
  simp [h, IsLiteral]

theorem BodyTree.literalsValued {ts : List Token} {body : List Stmt} (h : BodyTree ts body) :
    LiteralsValued ts := by
  induction h with
  | nil => simp [LiteralsValued]
  | deo keyword device comma value _ ih =>
    rw [literalsValued_cons (not_isLiteral_keyword keyword)]
    refine literalsValued_cons_of_value? device ?_
    rw [literalsValued_cons (not_isLiteral_punct comma)]
    exact literalsValued_cons_of_value? value ih
  | block opening _ closing _ ihi ihr =>
    rw [List.cons_append, literalsValued_cons (not_isLiteral_punct opening), literalsValued_append,
      literalsValued_cons (not_isLiteral_punct closing)]
    exact ⟨ihi, ihr⟩

theorem ProgramTree.literalsValued {ts : List Token} {mains : List Block}
    (h : ProgramTree ts mains) : LiteralsValued ts := by
  induction h with
  | nil => simp [LiteralsValued]
  | main keyword opening body closing _ ih =>
    rw [List.cons_append, List.cons_append, literalsValued_cons (not_isLiteral_keyword keyword),
      literalsValued_cons (not_isLiteral_punct opening), literalsValued_append,
      literalsValued_cons (not_isLiteral_punct closing)]
    exact ⟨body.literalsValued, ih⟩

theorem exists_bodyTree {ks : List Terminal} (h : IsBody ks) {ts : List Token}
    (terminals : ts.map Token.terminal = ks) (valued : LiteralsValued ts) :
    ∃ body, BodyTree ts body := by
  induction h generalizing ts with
  | nil =>
    rw [List.map_eq_nil_iff.mp terminals]
    exact ⟨[], .nil⟩
  | deo device value _ ih =>
    obtain ⟨keyword, ts, rfl, hk, ht⟩ := List.map_eq_cons_iff.mp terminals
    obtain ⟨d, ts, rfl, hd, ht⟩ := List.map_eq_cons_iff.mp ht
    obtain ⟨comma, ts, rfl, hc, ht⟩ := List.map_eq_cons_iff.mp ht
    obtain ⟨v, ts, rfl, hv, ht⟩ := List.map_eq_cons_iff.mp ht
    rw [literalsValued_cons (not_isLiteral_keyword hk)] at valued
    obtain ⟨x, hx⟩ := valued d (by simp) (hd ▸ device)
    obtain ⟨y, hy⟩ := valued v (by simp) (hv ▸ value)
    obtain ⟨body, tree⟩ := ih ht fun t h => valued t (by simp [h])
    exact ⟨_, .deo hk hx hc hy tree⟩
  | block _ _ ihi ihr =>
    obtain ⟨opening, ts, rfl, ho, ht⟩ := List.map_eq_cons_iff.mp terminals
    obtain ⟨inner, ts, rfl, hi, ht⟩ := List.map_eq_append_iff.mp ht
    obtain ⟨closing, ts, rfl, hc, ht⟩ := List.map_eq_cons_iff.mp ht
    obtain ⟨stmts, tree⟩ := ihi hi fun t h => valued t (by simp [h])
    obtain ⟨body, later⟩ := ihr ht fun t h => valued t (by simp [h])
    exact ⟨_, .block ho tree hc later⟩

theorem exists_programTree {ks : List Terminal} (h : IsProgram ks) {ts : List Token}
    (terminals : ts.map Token.terminal = ks) (valued : LiteralsValued ts) :
    ∃ mains, ProgramTree ts mains := by
  induction h generalizing ts with
  | nil =>
    rw [List.map_eq_nil_iff.mp terminals]
    exact ⟨[], .nil⟩
  | main body _ ih =>
    obtain ⟨keyword, ts, rfl, hk, ht⟩ := List.map_eq_cons_iff.mp terminals
    obtain ⟨opening, ts, rfl, ho, ht⟩ := List.map_eq_cons_iff.mp ht
    obtain ⟨inner, ts, rfl, hi, ht⟩ := List.map_eq_append_iff.mp ht
    obtain ⟨closing, ts, rfl, hc, ht⟩ := List.map_eq_cons_iff.mp ht
    obtain ⟨stmts, tree⟩ := exists_bodyTree body hi fun t h => valued t (by simp [h])
    obtain ⟨later, rest⟩ := ih ht fun t h => valued t (by simp [h])
    exact ⟨_, .main hk ho tree hc rest⟩

/-- **Tokens have a tree exactly when their terminals derive from the grammar and their literals
have values.** -/
theorem exists_programTree_iff {ts : List Token} : (∃ mains, ProgramTree ts mains) ↔
    IsProgram (ts.map Token.terminal) ∧ LiteralsValued ts :=
  ⟨fun ⟨_, tree⟩ => ⟨tree.isProgram, tree.literalsValued⟩,
    fun ⟨derives, valued⟩ => exists_programTree derives rfl valued⟩

/-! ## Counting -/

/-- Each output of a body has its keyword, and there are no main blocks in a body. -/
theorem BodyTree.count {ts : List Token} {body : List Stmt} (h : BodyTree ts body) :
    (ts.map Token.terminal).count (.keyword .deo) = (outputs body).length ∧
      (ts.map Token.terminal).count (.keyword .main) = 0 := by
  induction h with
  | nil => simp
  | deo keyword device comma value _ ih =>
    have literals := And.intro (isLiteral_of_value? device) (isLiteral_of_value? value)
    rcases literals with ⟨d | d, v | v⟩ <;> simp [keyword, d, comma, v, ih]
  | block opening _ closing _ ihi ihr =>
    simp [opening, closing, ihi, ihr]

/-- Each main block of a program has its keyword, and so has each output. -/
theorem ProgramTree.count {ts : List Token} {mains : List Block} (h : ProgramTree ts mains) :
    (ts.map Token.terminal).count (.keyword .deo) = (Program.mk mains).outputs.length ∧
      (ts.map Token.terminal).count (.keyword .main) = mains.length := by
  induction h with
  | nil => exact ⟨rfl, rfl⟩
  | main keyword opening body closing _ ih =>
    obtain ⟨deos, mains⟩ := body.count
    simp only [List.map_cons, List.map_append, List.cons_append, keyword, opening, closing]
    simp [deos, mains, ih, Program.outputs, Block.outputs]

/-! ## Operands -/

/-- The operands of the output are literals, with values of the tokens. -/
def Output.ReadFrom (o : Output) (ts : List Token) : Prop :=
  ∃ x y, o = ⟨.literal x, .literal y⟩ ∧
    (∃ t ∈ ts, t.value? = some x) ∧ ∃ t ∈ ts, t.value? = some y

theorem Output.ReadFrom.mono {o : Output} {ts us : List Token} (h : o.ReadFrom ts)
    (sub : ts ⊆ us) : o.ReadFrom us := by
  obtain ⟨x, y, shape, ⟨t, ht, first⟩, u, hu, second⟩ := h
  exact ⟨x, y, shape, ⟨t, sub ht, first⟩, u, sub hu, second⟩

theorem BodyTree.readFrom {ts : List Token} {body : List Stmt} (h : BodyTree ts body) :
    ∀ o ∈ outputs body, o.ReadFrom ts := by
  induction h with
  | nil => simp
  | @deo keyword device comma value x y rest _ _ hx _ hy _ ih =>
    rw [outputs_deo]
    refine List.forall_mem_cons.mpr ⟨⟨x, y, rfl, ⟨device, by simp, hx⟩, value, by simp, hy⟩, ?_⟩
    have sub : rest ⊆ keyword :: device :: comma :: value :: rest := fun t ht => by simp [ht]
    exact fun o ho => (ih o ho).mono sub
  | @block opening closing inner rest _ _ _ _ _ _ ihi ihr =>
    rw [outputs_block]
    have front : inner ⊆ opening :: inner ++ closing :: rest := fun t ht => by simp [ht]
    have back : rest ⊆ opening :: inner ++ closing :: rest := fun t ht => by simp [ht]
    exact List.forall_mem_append.mpr
      ⟨fun o ho => (ihi o ho).mono front, fun o ho => (ihr o ho).mono back⟩

/-- The operands in the tree of a program are literals that are read from its tokens. -/
theorem ProgramTree.readFrom {ts : List Token} {mains : List Block} (h : ProgramTree ts mains) :
    ∀ o ∈ (Program.mk mains).outputs, o.ReadFrom ts := by
  induction h with
  | nil => simp [Program.outputs]
  | @main keyword opening closing body rest _ _ _ _ tree _ _ ih =>
    rw [Program.outputs, List.flatMap_cons]
    have front : body ⊆ keyword :: opening :: body ++ closing :: rest := fun t ht => by simp [ht]
    have back : rest ⊆ keyword :: opening :: body ++ closing :: rest := fun t ht => by simp [ht]
    exact List.forall_mem_append.mpr
      ⟨fun o ho => (tree.readFrom o ho).mono front, fun o ho => (ih o ho).mono back⟩

end DeoLang
