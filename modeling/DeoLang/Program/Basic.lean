import DeoLang.Word

/-!
# Programs

* `Expr`: literals and arithmetic on words.
* `Stmt`: writing a value to a device, and blocks of statements.
* `Block`, `Program`: a program is a list of main blocks.
* `Expr.render`, `Stmt.render`, `Program.render`: the written form of a tree, on one line for each
  main block.
-/

namespace DeoLang

/-- The operators on words. -/
inductive BinOp where
  | add
  | sub
  | mul
  | div
  deriving Repr, DecidableEq

/-- The sign of an operator. -/
def BinOp.sign : BinOp → String
  | add => "+"
  | sub => "-"
  | mul => "*"
  | div => "/"

/-- An expression without variables. -/
inductive Expr where
  | literal (value : Word)
  | binary (op : BinOp) (lhs rhs : Expr)
  deriving Repr, DecidableEq

/-- The written form of an expression, every operation in parentheses. -/
def Expr.render : Expr → String
  | literal value => value.decimal
  | binary op lhs rhs => "(" ++ lhs.render ++ " " ++ op.sign ++ " " ++ rhs.render ++ ")"

/-- A statement. A block knows the line of its opening brace. -/
inductive Stmt where
  | deo (device value : Expr)
  | block (line : Nat) (body : List Stmt)
  deriving Repr

/-- The written forms of a body, between braces. -/
def renderBraces (body : List String) : String :=
  if body.isEmpty then "\x7b \x7d" else "\x7b " ++ "; ".intercalate body ++ " \x7d"

/-- The written form of each statement of a body. -/
def renderBody : List Stmt → List String
  | [] => []
  | .deo device value :: rest =>
    ("deo " ++ device.render ++ ", " ++ value.render) :: renderBody rest
  | .block _ body :: rest => renderBraces (renderBody body) :: renderBody rest

/-- The written form of a statement. -/
def Stmt.render : Stmt → String
  | deo device value => "deo " ++ device.render ++ ", " ++ value.render
  | block _ body => renderBraces (renderBody body)

theorem renderBody_cons (stmt : Stmt) (rest : List Stmt) :
    renderBody (stmt :: rest) = stmt.render :: renderBody rest := by
  cases stmt <;> rw [renderBody] <;> rfl

/-- Statements between braces, with the line of the opening one. -/
structure Block where
  line : Nat
  body : List Stmt
  deriving Repr

/-- The written form of a block. -/
def Block.render (b : Block) : String :=
  renderBraces (renderBody b.body)

/-- A program: its main blocks in the order of the source. -/
structure Program where
  mains : List Block
  deriving Repr

/-- The written form of a program. -/
def Program.render (p : Program) : String :=
  "\n".intercalate (p.mains.map fun b => "main " ++ b.render)

end DeoLang
