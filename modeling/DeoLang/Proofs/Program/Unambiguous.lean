import DeoLang.Proofs.Program.Outputs
import DeoLang.Proofs.Token.Printed

/-!
# Printed programs are unambiguous

* `EndsNumber`: a text that does not go on with a number.
* `Expr.render_append_inj`: where the text of an expression ends can be told from what it starts
  with, and so can the expression.
* `bodyTail`, `mainsTail`: the texts of statements and of main blocks, with the separator in front
  of each. `bodyTail_append_inj`, `mainsTail_append_inj` tell what they are made from.
* **`render_unambiguous`**: trees with the same written form are equal, apart from lines.
-/

namespace DeoLang

/-! ## Numbers -/

/-- The characters of signed numbers. -/
def isNumberChar (c : Char) : Bool :=
  c.isDigit || c = '-'

/-- The text does not go on with a number. -/
def EndsNumber (text : List Char) : Prop :=
  ∀ c ∈ text.head?, isNumberChar c = false

theorem EndsNumber.cons {c : Char} (h : isNumberChar c = false) (cs : List Char) :
    EndsNumber (c :: cs) := by
  rintro _ ⟨⟩
  exact h

theorem isNumberChar_of_mem_decimal {n : Nat} {c : Char} (h : c ∈ (decimal n).toList) :
    isNumberChar c = true := by
  have digit := decimalDigit_iff.mpr (Base.isDigit_iff.mp (isDigit_of_mem_decimal h))
  simp [isNumberChar, digit]

theorem toList_decimalInt (i : Int) : (decimalInt i).toList =
    if 0 ≤ i then (decimal i.natAbs).toList else '-' :: (decimal i.natAbs).toList := by
  cases i with
  | ofNat n => simp [decimalInt]
  | negSucc n => simp [decimalInt, Int.natAbs_negSucc]

theorem decimal_inj {m n : Nat} (h : decimal m = decimal n) : m = n := by
  rw [← value_decimal m, h, value_decimal]

theorem minus_not_mem_decimal (n : Nat) : '-' ∉ (decimal n).toList := by
  intro mem
  cases isDigit_of_mem_decimal mem

theorem decimalInt_inj {i j : Int} (h : decimalInt i = decimalInt j) : i = j := by
  have texts := congrArg String.toList h
  rw [toList_decimalInt, toList_decimalInt] at texts
  split_ifs at texts with hi hj hj
  · have := decimal_inj (String.toList_inj.mp texts)
    omega
  · exact absurd (texts ▸ List.mem_cons_self) (minus_not_mem_decimal i.natAbs)
  · exact absurd (texts ▸ List.mem_cons_self) (minus_not_mem_decimal j.natAbs)
  · have := decimal_inj (String.toList_inj.mp (List.cons.inj texts).2)
    omega

namespace Word

theorem isNumberChar_of_mem_decimal {w : Word} {c : Char} (h : c ∈ w.decimal.toList) :
    isNumberChar c = true := by
  rw [decimal, toList_decimalInt] at h
  split at h
  · exact DeoLang.isNumberChar_of_mem_decimal h
  · rcases List.mem_cons.mp h with rfl | digit
    · rfl
    · exact DeoLang.isNumberChar_of_mem_decimal digit

theorem decimal_ne_nil (w : Word) : w.decimal.toList ≠ [] := by
  rw [decimal, toList_decimalInt]
  split
  · exact (spells_decimal _).ne_nil
  · exact List.cons_ne_nil _ _

/-- The text of a word ends where the characters of numbers do. -/
theorem decimal_append_inj {v w : Word} {r s : List Char} (hr : EndsNumber r) (hs : EndsNumber s)
    (h : v.decimal.toList ++ r = w.decimal.toList ++ s) : v = w ∧ r = s := by
  obtain ⟨taken, left⟩ := Fragment.span_append (fun _ => v.isNumberChar_of_mem_decimal) hr
  obtain ⟨taken', left'⟩ := Fragment.span_append (fun _ => w.isNumberChar_of_mem_decimal) hs
  rw [h] at taken left
  have same : v.decimal = w.decimal := String.toList_inj.mp (taken.symm.trans taken')
  exact ⟨BitVec.eq_of_toInt_eq (decimalInt_inj same), left.symm.trans left'⟩

end Word

/-! ## Expressions -/

theorem BinOp.sign_append_inj {op op' : BinOp} {r s : List Char}
    (h : op.sign.toList ++ r = op'.sign.toList ++ s) : op = op' ∧ r = s := by
  cases op <;> cases op' <;> simp [BinOp.sign] at h <;> exact ⟨rfl, h⟩

namespace Expr

theorem toList_render_binary (op : BinOp) (lhs rhs : Expr) (rest : List Char) :
    (binary op lhs rhs).render.toList ++ rest =
      '(' :: (lhs.render.toList ++ ' ' :: (op.sign.toList ++ ' ' ::
        (rhs.render.toList ++ ')' :: rest))) := by
  simp [render]

theorem literal_append_ne (w : Word) (r s : List Char) :
    (literal w).render.toList ++ r ≠ '(' :: s := by
  obtain ⟨c, cs, text⟩ := List.exists_cons_of_ne_nil w.decimal_ne_nil
  have number := w.isNumberChar_of_mem_decimal (c := c) (by simp [text])
  rw [render, text]
  intro same
  rw [(List.cons.inj same).1] at number
  cases number

/-- **The text of an expression tells the expression**, and where it ends if no number goes on
behind it. -/
theorem render_append_inj {d e : Expr} {r s : List Char} (hr : EndsNumber r) (hs : EndsNumber s)
    (h : d.render.toList ++ r = e.render.toList ++ s) : d = e ∧ r = s := by
  have blank := EndsNumber.cons (c := ' ') rfl
  have paren := EndsNumber.cons (c := ')') rfl
  induction d generalizing e r s with
  | literal v =>
    cases e with
    | literal w =>
      obtain ⟨rfl, rest⟩ := Word.decimal_append_inj hr hs h
      exact ⟨rfl, rest⟩
    | binary op lhs rhs =>
      rw [toList_render_binary] at h
      exact absurd h (literal_append_ne v r _)
  | binary op lhs rhs ihl ihr =>
    rw [toList_render_binary] at h
    cases e with
    | literal w => exact absurd h.symm (literal_append_ne w s _)
    | binary op' lhs' rhs' =>
      rw [toList_render_binary] at h
      obtain ⟨rfl, afterLhs⟩ := ihl (blank _) (blank _) (List.cons.inj h).2
      obtain ⟨rfl, afterOp⟩ := BinOp.sign_append_inj (List.cons.inj afterLhs).2
      obtain ⟨rfl, afterRhs⟩ := ihr (paren _) (paren _) (List.cons.inj afterOp).2
      exact ⟨rfl, (List.cons.inj afterRhs).2⟩

end Expr

/-! ## Statements -/

/-- The statement with all blocks at a line. -/
def Stmt.reline (line : Nat) : Stmt → Stmt
  | deo device value => .deo device value
  | block _ body => .block line (relineBody line body)

theorem relineBody_cons (line : Nat) (stmt : Stmt) (rest : List Stmt) :
    relineBody line (stmt :: rest) = stmt.reline line :: relineBody line rest := by
  cases stmt with
  | deo device value => exact relineBody_deo line device value rest
  | block line' body => exact relineBody_block line line' body rest

theorem renderBody_relineBody (line : Nat) (body : List Stmt) :
    renderBody (relineBody line body) = renderBody body := by
  induction body using body_induction with
  | nil => rw [relineBody_nil]
  | deo device value rest ih => rw [relineBody_deo, renderBody, renderBody, ih]
  | block line' body rest ihb ihr =>
    rw [relineBody_block, renderBody, renderBody, ihb, ihr]

theorem Stmt.render_reline (line : Nat) (stmt : Stmt) :
    (stmt.reline line).render = stmt.render := by
  cases stmt with
  | deo device value => rfl
  | block line' body => rw [reline, render, render, renderBody_relineBody]

theorem Block.render_reline (line : Nat) (b : Block) : (b.reline line).render = b.render := by
  rw [render, render, reline, renderBody_relineBody]

/-- The text of statements up to the closing brace, with a separator in front of each. -/
def bodyTail : List Stmt → List Char
  | [] => [' ', '\x7d']
  | stmt :: rest => ';' :: ' ' :: (stmt.render.toList ++ bodyTail rest)

theorem endsNumber_bodyTail (body : List Stmt) (rest : List Char) :
    EndsNumber (bodyTail body ++ rest) := by
  cases body with
  | nil => exact .cons rfl _
  | cons stmt body => exact .cons rfl _

theorem toList_intercalate_renderBody (stmt : Stmt) (rest : List Stmt) :
    ("; ".intercalate (renderBody (stmt :: rest))).toList ++ [' ', '\x7d'] =
      stmt.render.toList ++ bodyTail rest := by
  induction rest generalizing stmt with
  | nil => rw [renderBody_cons, renderBody, String.intercalate_singleton, bodyTail]
  | cons next rest ih =>
    rw [renderBody_cons, renderBody_cons, String.intercalate_cons_cons, ← renderBody_cons,
      String.toList_append, String.toList_append, List.append_assoc, ih, bodyTail]
    simp

theorem toList_renderBraces_cons (stmt : Stmt) (rest : List Stmt) (behind : List Char) :
    (renderBraces (renderBody (stmt :: rest))).toList ++ behind =
      '\x7b' :: ' ' :: (stmt.render.toList ++ bodyTail rest ++ behind) := by
  have nonempty : (renderBody (stmt :: rest)).isEmpty = false := by rw [renderBody_cons]; rfl
  rw [renderBraces, nonempty, if_neg Bool.false_ne_true, ← toList_intercalate_renderBody]
  simp

theorem toList_renderBraces_nil (behind : List Char) :
    (renderBraces (renderBody [])).toList ++ behind = '\x7b' :: ' ' :: '\x7d' :: behind := by
  simp [renderBody, renderBraces]

/-- The character that the text of a statement starts with. -/
def Stmt.initial : Stmt → Char
  | deo _ _ => 'd'
  | block _ _ => '\x7b'

theorem Stmt.exists_render_append_eq (stmt : Stmt) (r : List Char) :
    ∃ s, stmt.render.toList ++ r = stmt.initial :: s := by
  cases stmt with
  | deo device value => simp [render, initial]
  | block line body =>
    cases body with
    | nil => exact ⟨_, toList_renderBraces_nil r⟩
    | cons stmt rest => exact ⟨_, toList_renderBraces_cons stmt rest r⟩

theorem Stmt.initial_eq {stmt stmt' : Stmt} {r s : List Char}
    (h : stmt.render.toList ++ r = stmt'.render.toList ++ s) : stmt.initial = stmt'.initial := by
  obtain ⟨t, text⟩ := stmt.exists_render_append_eq r
  obtain ⟨t', text'⟩ := stmt'.exists_render_append_eq s
  rw [text, text'] at h
  exact (List.cons.inj h).1

/-- No statement starts like the end of a block. -/
theorem Stmt.render_append_ne (stmt : Stmt) (r s : List Char) :
    stmt.render.toList ++ r ≠ '\x7d' :: s := by
  obtain ⟨t, text⟩ := stmt.exists_render_append_eq r
  rw [text]
  intro same
  cases stmt <;> cases same

theorem bodyTail_cons_append (stmt : Stmt) (rest : List Stmt) (behind : List Char) :
    bodyTail (stmt :: rest) ++ behind =
      "; ".toList ++ (stmt.render.toList ++ (bodyTail rest ++ behind)) := by
  simp [bodyTail]

theorem Stmt.toList_render_deo (device value : Expr) (behind : List Char) :
    (deo device value).render.toList ++ behind =
      "deo ".toList ++ (device.render.toList ++ (", ".toList ++
        (value.render.toList ++ behind))) := by
  simp [render]

/-- The text of a body tells the body, and where it ends. -/
def TailTells (body : List Stmt) : Prop :=
  ∀ body' r s, bodyTail body ++ r = bodyTail body' ++ s →
    relineBody 0 body = relineBody 0 body' ∧ r = s

theorem TailTells.braces {body body' : List Stmt} (tells : TailTells body) {r s : List Char}
    (h : (renderBraces (renderBody body)).toList ++ r =
      (renderBraces (renderBody body')).toList ++ s) :
    relineBody 0 body = relineBody 0 body' ∧ r = s := by
  cases body with
  | nil =>
    rw [toList_renderBraces_nil] at h
    cases body' with
    | nil =>
      rw [toList_renderBraces_nil] at h
      simpa using h
    | cons stmt rest =>
      rw [toList_renderBraces_cons, List.append_assoc] at h
      simp only [List.cons.injEq, true_and] at h
      exact absurd h.symm (stmt.render_append_ne _ _)
  | cons stmt rest =>
    rw [toList_renderBraces_cons] at h
    cases body' with
    | nil =>
      rw [toList_renderBraces_nil, List.append_assoc] at h
      simp only [List.cons.injEq, true_and] at h
      exact absurd h (stmt.render_append_ne _ _)
    | cons stmt' rest' =>
      rw [toList_renderBraces_cons] at h
      simp only [List.cons.injEq, true_and] at h
      exact tells _ _ _ (congrArg (';' :: ' ' :: ·) h)

/-- **The text of statements tells the statements**, apart from lines, and where they end. -/
theorem bodyTail_append_inj (body : List Stmt) : TailTells body := by
  have comma (t : List Char) : EndsNumber (", ".toList ++ t) := .cons rfl _
  induction body using body_induction with
  | nil =>
    intro body' r s h
    cases body' with
    | nil => exact ⟨rfl, List.append_cancel_left h⟩
    | cons stmt rest => simp [bodyTail] at h
  | deo device value rest ih =>
    intro body' r s h
    cases body' with
    | nil => simp [bodyTail] at h
    | cons stmt rest' =>
      rw [bodyTail_cons_append, bodyTail_cons_append] at h
      have texts := List.append_cancel_left h
      cases stmt with
      | block line body => cases Stmt.initial_eq texts
      | deo device' value' =>
        rw [Stmt.toList_render_deo, Stmt.toList_render_deo] at texts
        obtain ⟨rfl, afterDevice⟩ :=
          Expr.render_append_inj (comma _) (comma _) (List.append_cancel_left texts)
        obtain ⟨rfl, afterValue⟩ := Expr.render_append_inj (endsNumber_bodyTail rest r)
          (endsNumber_bodyTail rest' s) (List.append_cancel_left afterDevice)
        obtain ⟨same, behind⟩ := ih rest' r s afterValue
        exact ⟨by rw [relineBody_deo, relineBody_deo, same], behind⟩
  | block line body rest ihb ihr =>
    intro body' r s h
    cases body' with
    | nil => simp [bodyTail] at h
    | cons stmt rest' =>
      rw [bodyTail_cons_append, bodyTail_cons_append] at h
      have texts := List.append_cancel_left h
      cases stmt with
      | deo device value => cases Stmt.initial_eq texts
      | block line' body' =>
        obtain ⟨inner, afterBlock⟩ := ihb.braces texts
        obtain ⟨later, behind⟩ := ihr rest' r s afterBlock
        exact ⟨by rw [relineBody_block, relineBody_block, inner, later], behind⟩

theorem Stmt.render_eq_iff {s t : Stmt} : s.render = t.render ↔ s.reline 0 = t.reline 0 := by
  constructor
  · intro same
    have tails : bodyTail [s] ++ [] = bodyTail [t] ++ [] := by
      rw [bodyTail_cons_append, bodyTail_cons_append, same]
    have bodies := (bodyTail_append_inj [s] [t] [] [] tails).1
    rw [relineBody_cons, relineBody_cons] at bodies
    exact (List.cons.inj bodies).1
  · intro same
    rw [← s.render_reline 0, same, t.render_reline]

/-! ## Programs -/

/-- The text of main blocks, with a line break in front of each. -/
def mainsTail : List Block → List Char
  | [] => []
  | b :: rest => "\nmain ".toList ++ (b.render.toList ++ mainsTail rest)

theorem newline_append_render (b : Block) (rest : List Block) :
    '\n' :: (Program.mk (b :: rest)).render.toList = mainsTail (b :: rest) := by
  induction rest generalizing b with
  | nil => simp [Program.render, mainsTail]
  | cons next rest ih =>
    have later := ih next
    rw [Program.render, List.map_cons] at later
    rw [Program.render, List.map_cons, List.map_cons, String.intercalate_cons_cons, mainsTail,
      ← later]
    simp

/-- **The text of main blocks tells the blocks**, apart from lines. -/
theorem mainsTail_inj {mains mains' : List Block} (h : mainsTail mains = mainsTail mains') :
    mains.map (Block.reline 0) = mains'.map (Block.reline 0) := by
  induction mains generalizing mains' with
  | nil =>
    cases mains' with
    | nil => rfl
    | cons b rest => simp [mainsTail] at h
  | cons b rest ih =>
    cases mains' with
    | nil => simp [mainsTail] at h
    | cons b' rest' =>
      obtain ⟨body, later⟩ := (bodyTail_append_inj b.body).braces (List.append_cancel_left h)
      rw [List.map_cons, List.map_cons, ih later, Block.reline, Block.reline, body]

theorem mainsTail_eq_of_render {p q : Program} (h : p.render = q.render) :
    mainsTail p.mains = mainsTail q.mains := by
  obtain ⟨mains⟩ := p
  obtain ⟨mains'⟩ := q
  have nonempty (b : Block) (rest : List Block) :
      (Program.mk []).render ≠ (Program.mk (b :: rest)).render := by
    intro empty
    have text := newline_append_render b rest
    rw [← empty] at text
    simp [Program.render, mainsTail] at text
  cases mains with
  | nil =>
    cases mains' with
    | nil => rfl
    | cons b rest => exact absurd h (nonempty b rest)
  | cons b rest =>
    cases mains' with
    | nil => exact absurd h.symm (nonempty b rest)
    | cons b' rest' => rw [← newline_append_render, ← newline_append_render, h]

theorem Program.render_eq_iff {p q : Program} :
    p.render = q.render ↔ p.mains.map (Block.reline 0) = q.mains.map (Block.reline 0) := by
  constructor
  · exact fun same => mainsTail_inj (mainsTail_eq_of_render same)
  · intro same
    have texts (r : Program) : r.render = "\n".intercalate
        ((r.mains.map (Block.reline 0)).map fun b => "main " ++ b.render) := by
      rw [render, List.map_map]
      exact congrArg _ (List.map_congr_left fun b _ => by simp [Block.render_reline])
    rw [texts p, texts q, same]

/-- **Written forms are unambiguous.** Two expressions with the same written form are equal, and so
are two statements and two programs, apart from the lines of their blocks, which are not written. -/
theorem render_unambiguous :
    (∀ d e : Expr, d.render = e.render ↔ d = e) ∧
    (∀ s t : Stmt, s.render = t.render ↔ s.reline 0 = t.reline 0) ∧
    ∀ p q : Program,
      p.render = q.render ↔ p.mains.map (Block.reline 0) = q.mains.map (Block.reline 0) := by
  have ends : EndsNumber [] := by simp [EndsNumber]
  refine ⟨fun d e => ⟨fun same => ?_, congrArg _⟩, fun _ _ => Stmt.render_eq_iff,
    fun _ _ => Program.render_eq_iff⟩
  exact (Expr.render_append_inj ends ends (by rw [same])).1

/-- A sign behind an operator belongs to the number. -/
example : (Stmt.deo (.binary .sub (.literal 5) (.literal (-3))) (.literal (-32768))).render =
    "deo (5 - -3), -32768" := by
  decide +kernel

end DeoLang
