import DeoLang.Program.Basic

/-!
# Visiting programs

* `Visit`: what is met on the way through a program.
* `Program.visit`: meets every node in order. An action that fails ends the visit.
* `Program.walk`: records what is met, up to a literal that ends the walk.

An operator is met behind its operands, and everything else in front of its parts.
-/

namespace DeoLang

/-- What is met on the way through a program. -/
inductive Visit where
  | main
  | block (line : Nat)
  | deo
  | literal (value : Word)
  | operator (op : BinOp)
  deriving Repr, DecidableEq

/-- The text of a visit. -/
def Visit.render : Visit → String
  | main => "main"
  | block line => "block " ++ decimal line
  | deo => "deo"
  | literal value => value.decimal
  | operator op => op.sign

section

variable {m : Type → Type} [Monad m] (meet : Visit → m Unit)

/-- Meets the nodes of an expression. -/
def Expr.visit : Expr → m Unit
  | literal value => meet (.literal value)
  | binary op lhs rhs => do
    lhs.visit
    rhs.visit
    meet (.operator op)

/-- Meets the nodes of the statements of a body. -/
def visitBody : List Stmt → m Unit
  | [] => pure ()
  | .deo device value :: rest => do
    meet .deo
    device.visit meet
    value.visit meet
    visitBody rest
  | .block line body :: rest => do
    meet (.block line)
    visitBody body
    visitBody rest

/-- Meets the nodes of a block. -/
def Block.visit (b : Block) : m Unit := do
  meet (.block b.line)
  visitBody meet b.body

/-- Meets the nodes of a program. -/
def Program.visit (p : Program) : m Unit :=
  p.mains.forM fun b => do
    meet .main
    b.visit meet

end

/-- A record of visits, newest first, that a word can end. -/
abbrev Recording := ExceptT Word (StateM (List Visit))

/-- Records a visit. A literal with the signed value `stop` ends the walk instead. -/
def recordUnless (stop : Option Int) (v : Visit) : Recording Unit :=
  match v with
  | .literal value => if stop = some value.toInt then throw value else modify (v :: ·)
  | _ => modify (v :: ·)

/-- What a walk met, and the literal that ended it. -/
structure Walk where
  visited : List Visit
  stopped : Option Word
  deriving Repr, DecidableEq

/-- Records the visits of a program up to the first literal with the signed value `stop`. A number
out of the range of words stops nothing. -/
def Program.walk (p : Program) (stop : Option Int) : Walk :=
  match (p.visit (recordUnless stop)).run.run [] with
  | (.ok _, visited) => ⟨visited.reverse, none⟩
  | (.error value, visited) => ⟨visited.reverse, some value⟩

end DeoLang
