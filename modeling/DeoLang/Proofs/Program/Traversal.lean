import Mathlib
import DeoLang.Program.Visit
import DeoLang.Proofs.Program.Division

/-!
# The order of a visit

* `Expr.visits`, `visitsBody`, `Block.visits`, `Program.visits`: what is met on the way through the
  parts of a program, as lists.
* **`visit_eq_forM`**: a visit takes an action for each of these, one after the other, whatever the
  actions are.
* `Program.lines`, `Program.nodes`: the lines of all blocks, and the nodes of a program by their
  kind. `visits_perm_nodes` says that each node is met once.
* `Visit.stops`, `run_forM_of_passes`, `run_forM_of_stops`: a record of visits goes up to the first
  literal that ends it.
* **`walk_truncates`**: a walk that is ended is the start of the whole one.
-/

namespace DeoLang

/-! ## What is met, in order -/

/-- What is met last in an expression. -/
def Expr.root : Expr → Visit
  | literal value => .literal value
  | binary op _ _ => .operator op

/-- What is met in an expression: each subexpression behind those in it, from left to right. -/
def Expr.visits (e : Expr) : List Visit :=
  e.parts.map Expr.root

theorem visits_binary (op : BinOp) (lhs rhs : Expr) :
    (Expr.binary op lhs rhs).visits = lhs.visits ++ rhs.visits ++ [.operator op] := by
  simp [Expr.visits, Expr.parts, Expr.root]

/-- What is met in the statements of a body: outputs and blocks in front of their parts, and the
device of an output in front of its value. -/
def visitsBody : List Stmt → List Visit
  | [] => []
  | .deo device value :: rest => .deo :: (device.visits ++ value.visits ++ visitsBody rest)
  | .block line body :: rest => .block line :: (visitsBody body ++ visitsBody rest)

/-- What is met in a block. -/
def Block.visits (b : Block) : List Visit :=
  .block b.line :: visitsBody b.body

/-- What is met in a program. -/
def Program.visits (p : Program) : List Visit :=
  p.mains.flatMap fun b => .main :: b.visits

section

variable {m : Type → Type} [Monad m] [LawfulMonad m] (meet : Visit → m Unit)

theorem Expr.visit_eq_forM (e : Expr) : e.visit meet = forM e.visits meet := by
  induction e with
  | literal value => simp [visit, visits, parts, root]
  | binary op lhs rhs ihl ihr => simp [visit, visits_binary, ihl, ihr]

theorem visitBody_eq_forM (body : List Stmt) :
    visitBody meet body = forM (visitsBody body) meet := by
  induction body using body_induction with
  | nil => simp [visitBody, visitsBody]
  | deo device value rest ih =>
    simp [visitBody, visitsBody, Expr.visit_eq_forM, ih]
  | block line body rest ihb ihr => simp [visitBody, visitsBody, ihb, ihr]

theorem forM_flatMap {α : Type} (f : α → List Visit) (xs : List α) :
    forM (xs.flatMap f) meet = forM xs fun x => forM (f x) meet := by
  induction xs with
  | nil => rfl
  | cons x xs ih => rw [List.flatMap_cons, List.forM_append, ih, List.forM_cons]

/-- **A visit takes an action for each thing it meets**, in order, so that one that fails is the
last one. -/
theorem visit_eq_forM (p : Program) : p.visit meet = forM p.visits meet := by
  rw [Program.visit, Program.visits, forM_flatMap]
  have block (b : Block) : (do meet .main; b.visit meet) = forM (.main :: b.visits) meet := by
    rw [List.forM_cons, Block.visits, List.forM_cons, Block.visit, visitBody_eq_forM]
  simp only [block]
  rfl

end

/-! ## The nodes of a program -/

/-- The lines of the blocks in a body. -/
def bodyLines : List Stmt → List Nat
  | [] => []
  | .deo _ _ :: rest => bodyLines rest
  | .block line body :: rest => line :: (bodyLines body ++ bodyLines rest)

/-- The lines of all blocks of a program. -/
def Program.lines (p : Program) : List Nat :=
  p.mains.flatMap fun b => b.line :: bodyLines b.body

/-- The subexpressions in an output. -/
def Output.parts (o : Output) : List Expr :=
  o.operands.flatMap Expr.parts

/-- All subexpressions in a program. -/
def Program.parts (p : Program) : List Expr :=
  p.outputs.flatMap Output.parts

/-- The nodes of a program by their kind: main blocks, blocks, outputs and subexpressions. -/
def Program.nodes (p : Program) : List Visit :=
  p.mains.map (fun _ => Visit.main) ++ p.lines.map Visit.block ++
    p.outputs.map (fun _ => Visit.deo) ++ p.parts.map Expr.root

theorem visitsBody_perm (body : List Stmt) :
    (visitsBody body).Perm ((bodyLines body).map Visit.block ++
      (outputs body).map (fun _ => Visit.deo) ++
        ((outputs body).flatMap Output.parts).map Expr.root) := by
  rw [List.perm_iff_count]
  intro v
  induction body using body_induction with
  | nil => simp [visitsBody, bodyLines]
  | deo device value rest ih =>
    have operands : (Output.mk device value).parts = device.parts ++ value.parts := by
      simp [Output.parts, Output.operands]
    simp only [visitsBody, bodyLines, outputs_deo, operands, Expr.visits, List.map_cons,
      List.map_append, List.flatMap_cons, List.count_append, List.count_cons] at ih ⊢
    omega
  | block line body rest ihb ihr =>
    simp only [visitsBody, bodyLines, outputs_block, List.map_cons, List.map_append,
      List.flatMap_append, List.count_append, List.count_cons] at ihb ihr ⊢
    omega

/-- **Each node of a program is met once.** -/
theorem visits_perm_nodes (p : Program) : p.visits.Perm p.nodes := by
  obtain ⟨mains⟩ := p
  rw [List.perm_iff_count]
  intro v
  induction mains with
  | nil => simp [Program.visits, Program.nodes, Program.lines, Program.parts, Program.outputs]
  | cons b mains ih =>
    have body := (visitsBody_perm b.body).count_eq v
    simp only [Program.visits, Program.nodes, Program.lines, Program.parts, Program.outputs,
      Block.visits, Block.outputs, List.map_cons, List.map_append, List.flatMap_cons,
      List.flatMap_append, List.count_append, List.count_cons] at ih body ⊢
    omega

/-! ## Records -/

/-- The visit is of a literal that ends a walk. -/
def Visit.stops (stop : Option Int) : Visit → Bool
  | .literal value => stop = some value.toInt
  | _ => false

section

variable {x : Recording Unit} {y : Unit → Recording Unit} {before after : List Visit}

theorem run_bind_of_ok (h : x.run.run before = (.ok (), after)) :
    (x >>= y).run.run before = (y ()).run.run after := by
  rw [ExceptT.run_bind, StateT.run_bind, h]
  rfl

theorem run_bind_of_error {w : Word} (h : x.run.run before = (.error w, after)) :
    (x >>= y).run.run before = (.error w, after) := by
  rw [ExceptT.run_bind, StateT.run_bind, h]
  rfl

end

section

variable {stop : Option Int} {vs : List Visit} (passes : ∀ v ∈ vs, v.stops stop = false)

theorem run_recordUnless {v : Visit} (h : v.stops stop = false) (before : List Visit) :
    (recordUnless stop v).run.run before = (.ok (), v :: before) := by
  cases v with
  | literal value =>
    have other : stop ≠ some value.toInt := by simpa [Visit.stops] using h
    rw [recordUnless, if_neg other]
    rfl
  | main | block line | deo | operator op => rfl

theorem run_recordUnless_literal {w : Word} (h : stop = some w.toInt) (before : List Visit) :
    (recordUnless stop (.literal w)).run.run before = (.error w, before) := by
  rw [recordUnless, if_pos h]
  rfl

include passes

theorem run_forM_of_passes (before : List Visit) :
    (forM vs (recordUnless stop)).run.run before = (.ok (), vs.reverse ++ before) := by
  induction vs generalizing before with
  | nil => rfl
  | cons v vs ih =>
    have first := run_recordUnless (passes v List.mem_cons_self) before
    have rest := ih (fun u hu => passes u (List.mem_cons_of_mem v hu)) (v :: before)
    rw [List.forM_cons, run_bind_of_ok first, rest, List.reverse_cons, List.append_assoc]
    rfl

/-- What ends a walk is not recorded, and neither is anything behind it. -/
theorem run_forM_of_stops {w : Word} (h : stop = some w.toInt) (rest before : List Visit) :
    (forM (vs ++ .literal w :: rest) (recordUnless stop)).run.run before =
      (.error w, vs.reverse ++ before) := by
  rw [List.forM_append, run_bind_of_ok (run_forM_of_passes passes before), List.forM_cons,
    run_bind_of_error (run_recordUnless_literal h _)]

end

section

variable {stop : Option Int} {p : Program}

theorem walk_of_passes (passes : ∀ v ∈ p.visits, v.stops stop = false) :
    p.walk stop = ⟨p.visits, none⟩ := by
  rw [Program.walk, visit_eq_forM, run_forM_of_passes passes]
  simp

theorem walk_of_stops {before after : List Visit} {w : Word}
    (visits : p.visits = before ++ .literal w :: after)
    (passes : ∀ v ∈ before, v.stops stop = false) (h : stop = some w.toInt) :
    p.walk stop = ⟨before, some w⟩ := by
  rw [Program.walk, visit_eq_forM, visits, run_forM_of_stops passes h]
  simp

end

/-- A literal with a signed value is somewhere in the program. -/
def Program.HasLiteral (p : Program) (value : Int) : Prop :=
  ∃ w, .literal w ∈ p.parts ∧ w.toInt = value

theorem literal_mem_visits_iff {p : Program} {w : Word} :
    .literal w ∈ p.visits ↔ .literal w ∈ p.parts := by
  have root (e : Expr) : e.root = .literal w ↔ e = .literal w := by
    cases e <;> simp [Expr.root]
  rw [(visits_perm_nodes p).mem_iff]
  simp [Program.nodes, root]

theorem stops_some_iff {v : Visit} {value : Int} :
    v.stops (some value) = true ↔ ∃ w, v = .literal w ∧ w.toInt = value := by
  cases v <;> simp [Visit.stops, eq_comm]

/-- Either no literal ends a walk, or there is a first one. -/
theorem walk_cases (p : Program) (value : Int) :
    (¬p.HasLiteral value ∧ p.walk (some value) = ⟨p.visits, none⟩) ∨
    ∃ before w after, p.HasLiteral value ∧ p.visits = before ++ .literal w :: after ∧
      w.toInt = value ∧ (∀ u, .literal u ∈ before → u.toInt ≠ value) ∧
      p.walk (some value) = ⟨before, some w⟩ := by
  cases found : p.visits.find? (Visit.stops (some value)) with
  | none =>
    rw [List.find?_eq_none] at found
    refine .inl ⟨?_, walk_of_passes fun v hv => Bool.eq_false_iff.mpr (found v hv)⟩
    rintro ⟨w, mem, same⟩
    exact found _ (literal_mem_visits_iff.mpr mem) (stops_some_iff.mpr ⟨w, rfl, same⟩)
  | some v =>
    obtain ⟨stops, before, after, visits, passes⟩ := List.find?_eq_some_iff_append.mp found
    obtain ⟨w, rfl, same⟩ := stops_some_iff.mp stops
    simp only [Bool.not_eq_true'] at passes
    refine .inr ⟨before, w, after, ⟨w, ?_, same⟩, visits, same, fun u mem other => ?_, ?_⟩
    · rw [← literal_mem_visits_iff, visits]
      simp
    · have stops' := stops_some_iff.mpr ⟨u, rfl, other⟩
      rw [passes _ mem] at stops'
      cases stops'
    · exact walk_of_stops visits passes (by rw [same])

/-- **A walk that is ended is the start of the whole one.** Without a literal that ends it a walk
records all of `p.visits`: main blocks, blocks and outputs in front of their parts, devices in front
of values, and operators behind their operands from left to right. These are the nodes of the
program, each of them once. A walk with a literal to stop at stops exactly when the program has this
literal somewhere. It has recorded then what is in front of the first one, and else everything. -/
theorem walk_truncates (p : Program) :
    p.walk none = ⟨p.visits, none⟩ ∧ p.visits.Perm p.nodes ∧
    ∀ value : Int,
      ((p.walk (some value)).stopped.map BitVec.toInt = some value ↔ p.HasLiteral value) ∧
      (p.HasLiteral value → ∃ before w after,
        (p.walk none).visited = before ++ .literal w :: after ∧ w.toInt = value ∧
        (∀ u, .literal u ∈ before → u.toInt ≠ value) ∧
        p.walk (some value) = ⟨before, some w⟩) ∧
      (¬p.HasLiteral value → p.walk (some value) = p.walk none) := by
  have whole : p.walk none = ⟨p.visits, none⟩ :=
    walk_of_passes fun v _ => by cases v <;> rfl
  refine ⟨whole, visits_perm_nodes p, fun value => ?_⟩
  rw [whole]
  rcases walk_cases p value with ⟨absent, all⟩ | ⟨before, w, after, has, visits, same, first, cut⟩
  · rw [all]
    exact ⟨iff_of_false (by simp) absent, fun has => absurd has absent, fun _ => rfl⟩
  · rw [cut]
    exact ⟨iff_of_true (by simp [same]) has,
      fun _ => ⟨before, w, after, visits, same, first, rfl⟩, fun absent => absurd has absent⟩

/-- A program with a sum in a nested block, and with a literal of the sum once more. -/
def nestedSum : Program :=
  ⟨[⟨1, [.deo (.literal 1) (.literal 2),
    .block 2 [.deo (.literal 3) (.binary .add (.literal 4) (.literal (-5)))]]⟩,
    ⟨3, [.deo (.literal (-5)) (.literal 6)]⟩]⟩

theorem walk_truncates_nestedSum :
    (∃ before w after, (nestedSum.walk none).visited = before ++ .literal w :: after ∧
      w.toInt = -5 ∧ (∀ u, .literal u ∈ before → u.toInt ≠ -5) ∧
      nestedSum.walk (some (-5)) = ⟨before, some w⟩) ∧
    nestedSum.walk (some 65531) = nestedSum.walk none := by
  have parts : nestedSum.parts = [.literal 1, .literal 2, .literal 3, .literal 4, .literal (-5),
      .binary .add (.literal 4) (.literal (-5)), .literal (-5), .literal 6] := by cbv
  obtain ⟨-, -, stops⟩ := walk_truncates nestedSum
  constructor
  · exact (stops (-5)).2.1 ⟨-5, by simp [parts], by decide⟩
  · refine (stops 65531).2.2 ?_
    rintro ⟨w, -, same⟩
    have small := w.toInt_lt
    omega

/-- The operator is not met, and nothing behind the block is. -/
example : nestedSum.walk (some (-5)) = ⟨[.main, .block 1, .deo, .literal 1, .literal 2, .block 2,
    .deo, .literal 3, .literal 4], some (-5)⟩ := by
  cbv

end DeoLang
