import Mathlib
import DeoLang.Proofs.Program.Division

/-!
# Values modulo the count of words

* `BinOp.unbounded`, `Expr.unbounded`: operations on integers without bounds, and the value that an
  expression has with them.
* **`eval_eq_ofInt`**: without divisions the value of an expression is the word of this integer.
* `Frame`, `Expr.within`: an expression at a place in a larger one. `mem_parts_iff` says that each
  subexpression is at some place.
* **`eval_within_congr`**: of an expression at a place only the value counts.
* **`eval_modular`**: evaluation is arithmetic modulo 65536, and any part may be evaluated first.
-/

namespace DeoLang

/-! ## Integers without bounds -/

/-- The operation on integers without bounds. -/
def BinOp.unbounded : BinOp → Int → Int → Int
  | add, m, n => m + n
  | sub, m, n => m - n
  | mul, m, n => m * n
  | div, m, n => m / n

/-- The value of an expression in integers without bounds, its literals signed. -/
def Expr.unbounded : Expr → Int
  | literal value => value.toInt
  | binary op lhs rhs => op.unbounded lhs.unbounded rhs.unbounded

theorem apply_ofInt {op : BinOp} (h : op ≠ .div) (m n : Int) :
    op.apply (BitVec.ofInt 16 m) (BitVec.ofInt 16 n) =
      .ok (BitVec.ofInt 16 (op.unbounded m n)) := by
  cases op with
  | add => rw [BinOp.apply, BinOp.unbounded, BitVec.ofInt_add]
  | sub =>
    rw [BinOp.apply, BinOp.unbounded, Int.sub_eq_add_neg, BitVec.ofInt_add, BitVec.ofInt_neg,
      BitVec.sub_eq_add_neg]
  | mul => rw [BinOp.apply, BinOp.unbounded, BitVec.ofInt_mul]
  | div => exact absurd rfl h

theorem divisors_binary_eq_nil_iff {op : BinOp} {lhs rhs : Expr} :
    (Expr.binary op lhs rhs).divisors = [] ↔
      lhs.divisors = [] ∧ rhs.divisors = [] ∧ op ≠ .div := by
  simp [Expr.divisors]

/-- **Without divisions an expression has the word of its value in integers.** -/
theorem eval_eq_ofInt {e : Expr} (h : e.divisors = []) :
    e.eval = .ok (BitVec.ofInt 16 e.unbounded) := by
  induction e with
  | literal value => rw [Expr.eval, Expr.unbounded, BitVec.ofInt_toInt]
  | binary op lhs rhs ihl ihr =>
    obtain ⟨left, right, noDivision⟩ := divisors_binary_eq_nil_iff.mp h
    rw [Expr.eval, ihl left, ihr right]
    exact apply_ofInt noDivision _ _

theorem toInt_ofInt_modEq (n : Int) : (BitVec.ofInt 16 n).toInt ≡ n [ZMOD 65536] := by
  rw [BitVec.toInt_ofInt]
  exact Int.bmod_emod

/-! ## Places -/

/-- An operator with one of its operands, next to the place of the other. -/
inductive Frame where
  | left (op : BinOp) (rhs : Expr)
  | right (op : BinOp) (lhs : Expr)
  deriving Repr, DecidableEq

/-- The operation with an expression at the free place. -/
def Frame.fill : Frame → Expr → Expr
  | left op rhs, e => .binary op e rhs
  | right op lhs, e => .binary op lhs e

/-- The expression at a place in a larger one. The outermost frame comes first. -/
def Expr.within (frames : List Frame) (e : Expr) : Expr :=
  frames.foldr Frame.fill e

theorem self_mem_parts (e : Expr) : e ∈ e.parts := by
  cases e <;> simp [Expr.parts]

theorem mem_parts_fill {part e : Expr} (h : part ∈ e.parts) (f : Frame) :
    part ∈ (f.fill e).parts := by
  cases f <;> simp [Frame.fill, Expr.parts, h]

theorem mem_parts_iff {part e : Expr} : part ∈ e.parts ↔ ∃ frames, e = part.within frames := by
  constructor
  · intro mem
    induction e with
    | literal value =>
      obtain rfl := List.mem_singleton.mp mem
      exact ⟨[], rfl⟩
    | binary op lhs rhs ihl ihr =>
      simp only [Expr.parts, List.mem_append, List.mem_singleton] at mem
      rcases mem with (mem | mem) | rfl
      · obtain ⟨frames, rfl⟩ := ihl mem
        exact ⟨.left op rhs :: frames, rfl⟩
      · obtain ⟨frames, rfl⟩ := ihr mem
        exact ⟨.right op lhs :: frames, rfl⟩
      · exact ⟨[], rfl⟩
  · rintro ⟨frames, rfl⟩
    induction frames with
    | nil => exact self_mem_parts part
    | cons f frames ih => exact mem_parts_fill ih f

theorem eval_fill_congr {d e : Expr} (h : d.eval = e.eval) (f : Frame) :
    (f.fill d).eval = (f.fill e).eval := by
  cases f with
  | left op rhs => rw [Frame.fill, Frame.fill, Expr.eval, Expr.eval, h]
  | right op lhs => rw [Frame.fill, Frame.fill, Expr.eval, Expr.eval, h]

/-- **Of an expression at a place only the value counts**, or its failure. -/
theorem eval_within_congr {d e : Expr} (h : d.eval = e.eval) (frames : List Frame) :
    (d.within frames).eval = (e.within frames).eval := by
  induction frames with
  | nil => exact h
  | cons f frames ih => exact eval_fill_congr ih f

/-- **Evaluation is arithmetic modulo 65536.** An expression without divisions has a value: the
signed word that is congruent to its value in integers. In every expression, with divisions or
without, a part that has a value may be replaced by the literal of it in any place, and the whole
has the same value or fails as before. -/
theorem eval_modular :
    (∀ e : Expr, e.divisors = [] → ∃ v, e.eval = .ok v ∧
      -32768 ≤ v.toInt ∧ v.toInt ≤ 32767 ∧ v.toInt ≡ e.unbounded [ZMOD 65536]) ∧
    (∀ part e : Expr, part ∈ e.parts ↔ ∃ frames, e = part.within frames) ∧
    ∀ (frames : List Frame) (part : Expr) (w : Word), part.eval = .ok w →
      ((Expr.literal w).within frames).eval = (part.within frames).eval := by
  refine ⟨fun e noDivision => ?_, fun _ _ => mem_parts_iff, fun frames part w value => ?_⟩
  · have low := (BitVec.ofInt 16 e.unbounded).le_toInt
    have high := (BitVec.ofInt 16 e.unbounded).toInt_lt
    exact ⟨_, eval_eq_ofInt noDivision, low, Int.le_of_lt_add_one high,
      toInt_ofInt_modEq e.unbounded⟩
  · have same : (Expr.literal w).eval = part.eval := value.symm
    exact eval_within_congr same frames

/-- A product that does not fit in a word. -/
def largeProduct : Expr :=
  .binary .mul (.literal 300) (.literal (-300))

theorem eval_modular_largeProduct :
    (∃ v, largeProduct.eval = .ok v ∧ -32768 ≤ v.toInt ∧ v.toInt ≤ 32767 ∧
      v.toInt ≡ -90000 [ZMOD 65536]) ∧
    (Expr.binary .add (.binary .div (.literal (-24464)) (.literal 2)) (.literal 1)).eval =
      (Expr.binary .add (.binary .div largeProduct (.literal 2)) (.literal 1)).eval := by
  obtain ⟨modular, -, folded⟩ := eval_modular
  constructor
  · have integer : largeProduct.unbounded = -90000 := by decide
    rw [← integer]
    exact modular largeProduct rfl
  · exact folded [.left .add (.literal 1), .left .div (.literal 2)] largeProduct (-24464)
      (by decide)

/-- Division is that of unsigned words, so it does not go along with integers. -/
example : (Expr.binary .div (.literal (-2)) (.literal 2)).eval = .ok 32767 ∧
    (Expr.binary .div (.literal (-2)) (.literal 2)).unbounded = -1 := by
  decide

end DeoLang
