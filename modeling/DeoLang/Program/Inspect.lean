import DeoLang.Program.Review

/-!
# Inspection of programs

* `Inspector`: what is known in the middle of an inspection.
* `Inspector.judge`: puts a message into the report, as severe as its level.
* `Inspector.within`: goes through a block and comes back to the line of the one around it.
* `Program.inspect`: the report on a program, written on the way through it.

A review collects findings and judges them afterwards. An inspection goes through a program in the
same order, but judges each finding where it is made, so what the policy allows leaves no trace.
-/

namespace DeoLang

/-- The state of an inspection: its policy, the report so far, the line of the first main block and
the line of the innermost block. -/
structure Inspector where
  policy : Policy
  report : Report
  first : Option Nat
  line : Nat
  deriving Repr, DecidableEq

namespace Inspector

/-- An inspector that has seen nothing. -/
def ofPolicy (policy : Policy) : Inspector :=
  ⟨policy, [], none, 1⟩

/-- Puts a message about a line into the report, unless its level allows it. -/
def judge (i : Inspector) (level : Level) (line : Nat) (message : String) : Inspector :=
  match level with
  | .allow => i
  | .warn => { i with report := i.report.push ⟨.warning, line, message⟩ }
  | .deny => { i with report := i.report.push ⟨.error, line, message⟩ }

/-- Takes note of a main block at a line. The first one is remembered and those behind it are
judged. -/
def enterMain (i : Inspector) (line : Nat) : Inspector :=
  match i.first with
  | none => { i with first := some line }
  | some first => i.judge i.policy.duplicateMain line (Cause.duplicateMain first).message

/-- Inspects the inside of a block at a line. Behind the block the line is the outer one again. -/
def within (i : Inspector) (line : Nat) (inspect : Inspector → Inspector) : Inspector :=
  { inspect { i with line } with line := i.line }

end Inspector

/-- Inspects an expression: each division, behind its operands. -/
def Expr.inspect : Expr → Inspector → Inspector
  | literal _, i => i
  | binary op lhs rhs, i =>
    let i := rhs.inspect (lhs.inspect i)
    if op = .div ∧ rhs.value? = some 0 then i.judge .deny i.line Cause.divisionByZero.message else i

/-- Inspects whether the device of an output is a byte. -/
def inspectDevice (device : Expr) (i : Inspector) : Inspector :=
  match device.value? with
  | some value =>
    if 255 < value.toNat then i.judge i.policy.deviceRange i.line (Cause.wideDevice value).message
    else i
  | none => i

/-- Inspects the statements of a block. -/
def inspectBody : List Stmt → Inspector → Inspector
  | [], i => i
  | .deo device value :: rest, i =>
    inspectBody rest (inspectDevice device (value.inspect (device.inspect i)))
  | .block line body :: rest, i => inspectBody rest (i.within line (inspectBody body))

/-- Inspects a main block. -/
def Block.inspect (b : Block) (i : Inspector) : Inspector :=
  (i.enterMain b.line).within b.line (inspectBody b.body)

/-- The report of an inspection: the warnings if the program passes it, else all diagnostics. -/
def Program.inspect (p : Program) (policy : Policy) : Except Report Report :=
  let i := p.mains.foldl (fun i (b : Block) => b.inspect i) (.ofPolicy policy)
  if i.report.hasErrors then .error i.report else .ok i.report

end DeoLang
