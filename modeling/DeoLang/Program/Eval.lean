import DeoLang.Program.Basic

/-!
# Values of expressions

* `BinOp.apply`: an operation of the target machine.
* `Expr.eval`: the value of an expression, known before the program runs.

Sums, differences and products wrap around, and division is that of unsigned words.
-/

namespace DeoLang

/-- Why an expression has no value. -/
inductive EvalError where
  | divisionByZero
  deriving Repr, DecidableEq

/-- The wording of an evaluation error. -/
def EvalError.message : EvalError → String
  | divisionByZero => "division by zero in constant expression"

/-- The result of an operation. -/
def BinOp.apply (op : BinOp) (a b : Word) : Except EvalError Word :=
  match op with
  | add => .ok (a + b)
  | sub => .ok (a - b)
  | mul => .ok (a * b)
  | div => if b = 0 then .error .divisionByZero else .ok (a.udiv b)

namespace Expr

/-- The value of an expression. -/
def eval : Expr → Except EvalError Word
  | literal value => .ok value
  | binary op lhs rhs =>
    match lhs.eval with
    | .error e => .error e
    | .ok a =>
      match rhs.eval with
      | .error e => .error e
      | .ok b => op.apply a b

/-- The value of an expression, if it has one. -/
def value? (e : Expr) : Option Word :=
  e.eval.toOption

end Expr

end DeoLang
