import Mathlib
import DeoLang.Proofs.Session.Operation
import DeoLang.Proofs.Session.Reading

/-!
# The contract of the nodes

* `Session.program?`: a program, or nothing if the end is not found behind it; `program?_eq`.
* `Node.Tree`, `Node.read`: what is built for a node, and reading it.
* `Node.Covers`, `Node.Complete`: the tree of a node is that of all its tokens.
* `Node.exists_complete`: a node behind which nothing is held back is complete.
* `recorded_of_acts`: errors are held back only behind one that was recorded.
* **`read_contract`**: each node keeps its contract in every state that operations lead to.
-/

namespace DeoLang

/-- Reads a program, which has to stand in front of the end. -/
def Session.program? (s : Session) : Option Program × Session :=
  let close := s.decls.2.expect .ending
  (close.1.map fun _ => ⟨s.decls.1⟩, close.2)

/-- The end is always found: declarations go on up to it. -/
theorem Session.program?_eq (s : Session) : s.program? = (some s.program.1, s.program.2) := by
  have ending := expect_of_check (atEnd_iff.mp s.atEnd_decls)
  rw [program?, program, ending]
  rfl

namespace Node

/-- What is built for a node. A main block is the block behind its keyword. -/
def Tree : Node → Type
  | literal => Word
  | expr => Expr
  | deo => Stmt
  | stmt => Stmt
  | block => Block
  | decl => Block
  | program => Program

/-- Reads a node. -/
def read (s : Session) : (n : Node) → Option n.Tree × Session
  | literal => s.literal
  | expr => s.expr
  | deo => s.deo
  | stmt => s.stmt
  | block => s.block
  | decl => s.decl
  | program => s.program?

theorem read_snd (s : Session) (n : Node) : (n.read s).2 = n.apply s := by
  cases n with
  | program => exact congrArg Prod.snd s.program?_eq
  | literal | expr | deo | stmt | block | decl => rfl

/-- The tree is that of all the tokens. The keyword of an output stands in front of them. -/
def Covers : (n : Node) → List Token → n.Tree → Prop
  | literal, ts, value => ∃ t : Token, ts = [t] ∧ t.value? = some value
  | expr, ts, tree => ∃ (t : Token) (w : Word), ts = [t] ∧ t.value? = some w ∧ tree = .literal w
  | deo, ts, tree => ∀ keyword : Token, keyword.terminal = .keyword .deo →
      BodyTree (keyword :: ts) [tree]
  | stmt, ts, tree => BodyTree ts [tree]
  | block, ts, tree => BlockTree ts tree
  | decl, ts, tree => ProgramTree ts [tree]
  | program, ts, tree => ProgramTree ts tree.mains

/-- The node has been read over all its tokens, and there was nothing to report. -/
structure Complete (s : Session) (n : Node) (ts : List Token) (tree : n.Tree) : Prop where
  built : (n.read s).1 = some tree
  covers : n.Covers ts tree
  reads : s.Reads ts (n.read s).2

section

variable {s s' : Session}

theorem Complete.of_read {n : Node} {ts : List Token} {tree : n.Tree}
    (read : n.read s = (some tree, s')) (covers : n.Covers ts tree) (reads : s.Reads ts s') :
    Complete s n ts tree := by
  constructor
  · rw [read]
  · exact covers
  · rwa [read]

theorem exists_complete_literal (calm : s.literal.2.panic = false) :
    ∃ ts tree, Complete s literal ts tree := by
  obtain ⟨w, value⟩ := Session.literal_of_calm calm
  have read := Session.literal_of_value? value
  rw [read] at calm
  exact ⟨_, w, .of_read read ⟨s.current, rfl, value⟩ (Session.Reads.nil calm).advance⟩

theorem exists_complete_expr (calm : s.expr.2.panic = false) :
    ∃ ts tree, Complete s expr ts tree := by
  obtain ⟨w, value, read⟩ := Session.expr_of_calm calm
  rw [read] at calm
  exact ⟨_, .literal w, .of_read read ⟨s.current, w, rfl, value, rfl⟩
    (Session.Reads.nil calm).advance⟩

theorem exists_complete_deo (calm : s.deo.2.panic = false) :
    ∃ ts tree, Complete s deo ts tree := by
  obtain ⟨x, y, device, comma, value, last⟩ := Session.deo_of_calm calm
  rw [last] at calm
  have read := Session.deo_of_values device comma value
  have covers : deo.Covers [s.current, s.advance.current, s.advance.advance.current]
      (.deo (.literal x) (.literal y) : Stmt) := by
    intro keyword isDeo
    exact .deo isDeo device comma value .nil
  exact ⟨_, _, .of_read read covers (Session.Reads.nil calm).advance.advance.advance⟩

theorem exists_complete_stmt (calm : s.stmt.2.panic = false) :
    ∃ ts tree, Complete s stmt ts tree := by
  obtain ⟨ts, tree, built, reads, cons⟩ := Session.reads_of_stmt (fun _ => Session.bodyReads _) calm
  have covers := cons [] [] .nil
  rw [List.append_nil] at covers
  exact ⟨ts, tree, built, covers, reads⟩

theorem exists_complete_block (calm : s.block.2.panic = false) :
    ∃ ts tree, Complete s block ts tree := by
  obtain ⟨ts, tree, built, covers, reads⟩ :=
    Session.reads_of_block (fun _ => Session.bodyReads _) calm
  exact ⟨ts, tree, built, covers, reads⟩

theorem exists_complete_decl (calm : s.decl.2.panic = false) :
    ∃ ts tree, Complete s decl ts tree := by
  obtain ⟨keyword, ts, tree, isMain, built, covers, reads⟩ := Session.reads_of_decl calm
  have main := covers.main isMain .nil
  rw [List.append_nil] at main
  exact ⟨keyword :: ts, tree, built, main, reads⟩

end

/-- **A node behind which nothing is held back is complete.** A program is different: it starts to
record again behind a broken declaration. -/
theorem exists_complete {s : Session} {n : Node} (notProgram : n ≠ program)
    (calm : (n.read s).2.panic = false) : ∃ ts tree, Complete s n ts tree := by
  cases n with
  | literal => exact exists_complete_literal calm
  | expr => exact exists_complete_expr calm
  | deo => exact exists_complete_deo calm
  | stmt => exact exists_complete_stmt calm
  | block => exact exists_complete_block calm
  | decl => exact exists_complete_decl calm
  | program => exact absurd rfl notProgram

end Node

theorem Session.recorded_of_acts {source : String} {s : Session} (acts : Acts (ofSource source) s)
    (held : s.panic = true) : s.diagnostics ≠ [] := by
  obtain ⟨es, events, orderly, panic⟩ := acts.exists_events
  have start : s.events = es := events
  rw [panic] at held
  rw [diagnostics_eq_reported, start]
  exact orderly.panicPoint.recorded held

/-- What reading a node promises: where nothing was built an error was recorded and others are held
back, and where nothing is held back the node is complete and no diagnostic was added. -/
structure Node.Contract (s : Session) (n : Node) : Prop where
  missing : (n.read s).1 = none → (n.read s).2.panic = true ∧ (n.read s).2.diagnostics ≠ []
  complete : (n.read s).2.panic = false →
    (∃ ts tree, n.Complete s ts tree) ∧ (n.read s).2.diagnostics = s.diagnostics

/-- **Each node keeps its contract** in every state that operations lead to, whatever they are, and
a program is always built. -/
theorem read_contract (source : String) (ops : List Operation) :
    (∀ n, n ≠ .program → Node.Contract ((Session.ofSource source).perform ops) n) ∧
      ∃ p, (Node.program.read ((Session.ofSource source).perform ops)).1 = some p := by
  have acts := (Session.ofSource source).acts_perform ops
  generalize (Session.ofSource source).perform ops = s at acts
  constructor
  · intro n notProgram
    constructor
    · intro missing
      have held : (n.read s).2.panic = true := by
        cases calm : (n.read s).2.panic with
        | true => rfl
        | false =>
          obtain ⟨ts, tree, complete⟩ := Node.exists_complete notProgram calm
          cases missing.symm.trans complete.built
      refine ⟨held, Session.recorded_of_acts (acts.trans ?_) held⟩
      rw [Node.read_snd]
      exact s.acts_node n
    · intro calm
      obtain ⟨ts, tree, complete⟩ := Node.exists_complete notProgram calm
      exact ⟨⟨ts, tree, complete⟩, complete.reads.diagnostics_eq⟩
  · exact ⟨s.program.1, congrArg Prod.fst s.program?_eq⟩

/-- A statement outside of any block, behind which nothing is held back. -/
theorem read_contract_stmt : ∃ (ts : List Token) (tree : Stmt),
    Node.stmt.Complete ((Session.ofSource "deo 1, 2").perform [.advance, .advance]) ts tree := by
  have calm : (Node.stmt.read
      ((Session.ofSource "deo 1, 2").perform [.advance, .advance])).2.panic = false := by
    cbv
  obtain ⟨contract, -⟩ := read_contract "deo 1, 2" [.advance, .advance]
  exact ((contract .stmt (by decide)).complete calm).1

end DeoLang
