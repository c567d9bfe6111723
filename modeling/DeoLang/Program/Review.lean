import DeoLang.Program.Eval
import DeoLang.Report
import DeoLang.Text.Hex

/-!
# Review of programs

* `Level`, `Policy`: how severe each kind of finding is.
* `Finding`: a questionable place in a program.
* `Reviewer`: what is known in the middle of a review.
* `Program.findings`: all findings of a program, in the order of the source.
* `Program.review`: the findings as a report under a policy. A program without errors passes.

A division by zero is an error under every policy. Expressions have no line of their own, so a
finding in one has the line of the innermost block around it.
-/

namespace DeoLang

/-- How severe a finding is. -/
inductive Level where
  | allow
  | warn
  | deny
  deriving Repr, DecidableEq

/-- The level of a check that nothing is said about. -/
def Level.default : Level := .warn

/-- The levels of the checks that can be turned off. -/
structure Policy where
  duplicateMain : Level
  deviceRange : Level
  deriving Repr, DecidableEq

/-- The policy unless another is asked for: one main block, and warnings for wide devices. -/
def Policy.default : Policy :=
  ⟨.deny, .warn⟩

/-- What is questionable about a place. -/
inductive Cause where
  | divisionByZero
  | duplicateMain (first : Nat)
  | wideDevice (device : Word)
  deriving Repr, DecidableEq

/-- The wording of a cause. -/
def Cause.message : Cause → String
  | divisionByZero => EvalError.divisionByZero.message
  | duplicateMain first => "duplicate main block, first defined at line " ++ decimal first
  | wideDevice device =>
    "port 0x" ++ String.ofList (hexFixed 4 device.toNat) ++
      " does not fit in a byte and will be truncated to 0x" ++
      String.ofList (hexFixed 2 device.low.toNat)

/-- A questionable place in a program. -/
structure Finding where
  line : Nat
  cause : Cause
  deriving Repr, DecidableEq

/-- The level of a cause under a policy. -/
def Policy.level (policy : Policy) : Cause → Level
  | .divisionByZero => .deny
  | .duplicateMain _ => policy.duplicateMain
  | .wideDevice _ => policy.deviceRange

/-- The diagnostic for a finding under a policy, unless it is allowed. -/
def Policy.judge (policy : Policy) (f : Finding) : Option Diagnostic :=
  match policy.level f.cause with
  | .allow => none
  | .warn => some ⟨.warning, f.line, f.cause.message⟩
  | .deny => some ⟨.error, f.line, f.cause.message⟩

/-- The state of a review: the line of the first main block, and the findings, newest first. -/
structure Reviewer where
  first : Option Nat
  found : List Finding
  deriving Repr, DecidableEq

namespace Reviewer

/-- A reviewer that has seen nothing. -/
def empty : Reviewer :=
  ⟨none, []⟩

/-- Notes a finding. -/
def note (r : Reviewer) (line : Nat) (cause : Cause) : Reviewer :=
  { r with found := ⟨line, cause⟩ :: r.found }

/-- Notes a main block at a line. The first one is remembered and those behind it are findings. -/
def enterMain (r : Reviewer) (line : Nat) : Reviewer :=
  match r.first with
  | none => { r with first := some line }
  | some first => r.note line (.duplicateMain first)

end Reviewer

/-- Reviews an expression in a block at `line`: each division, behind its operands. -/
def Expr.check (line : Nat) : Expr → Reviewer → Reviewer
  | literal _, r => r
  | binary op lhs rhs, r =>
    let r := rhs.check line (lhs.check line r)
    if op = .div ∧ rhs.value? = some 0 then r.note line .divisionByZero else r

/-- Reviews whether the device of an output in a block at `line` is a byte. -/
def checkDevice (line : Nat) (device : Expr) (r : Reviewer) : Reviewer :=
  match device.value? with
  | some value => if 255 < value.toNat then r.note line (.wideDevice value) else r
  | none => r

/-- Reviews the statements of a block at `line`. -/
def checkBody (line : Nat) : List Stmt → Reviewer → Reviewer
  | [], r => r
  | .deo device value :: rest, r =>
    checkBody line rest (checkDevice line device (value.check line (device.check line r)))
  | .block inner body :: rest, r => checkBody line rest (checkBody inner body r)

/-- Reviews a main block. -/
def Block.check (b : Block) (r : Reviewer) : Reviewer :=
  checkBody b.line b.body (r.enterMain b.line)

/-- The findings in a program, in the order of the source. -/
def Program.findings (p : Program) : List Finding :=
  (p.mains.foldl (fun r (b : Block) => b.check r) Reviewer.empty).found.reverse

/-- The report on a program: the warnings if it passes, else all diagnostics. -/
def Program.review (p : Program) (policy : Policy) : Except Report Report :=
  let report : Report := p.findings.filterMap policy.judge
  if report.hasErrors then .error report else .ok report

end DeoLang
