import DeoLang.Image.Lower
import DeoLang.Machine.Memory
import DeoLang.Program.Review
import DeoLang.Session.Node

/-!
# Building images

* `BuildError`: why a source has no image.
* `compile`: the image of a source with the warnings about it, under a policy.
* `compileImage`: the image of a source under the policy `Policy.default`.
-/

namespace DeoLang

/-- Why a source has no image. -/
inductive BuildError where
  | parsing (report : Report)
  | semantics (report : Report)
  | tooLarge (size : Nat)
  deriving Repr, DecidableEq

namespace BuildError

/-- The diagnostics behind an error, if it comes from the text of the source. -/
def report? : BuildError → Option Report
  | parsing report => some report
  | semantics report => some report
  | tooLarge _ => none

/-- The wording of an error. -/
def message : BuildError → String
  | parsing report => "parsing failed:\n" ++ report.render
  | semantics report => "semantic analysis failed:\n" ++ report.render
  | tooLarge size => "program image of " ++ decimal size ++ " bytes too large for memory"

end BuildError

/-- An image with the warnings about its source. -/
structure Build where
  image : List Byte
  warnings : Report
  deriving Repr, DecidableEq

/-- The image of a program that has passed its review, if it fits in memory. -/
def Program.build (p : Program) (warnings : Report) : Except BuildError Build :=
  let image := p.image
  if fits image.length then .ok ⟨image, warnings⟩ else .error (.tooLarge image.length)

/-- The image of a source and the warnings about it. -/
def compile (policy : Policy) (source : String) : Except BuildError Build :=
  match parse source with
  | .error report => .error (.parsing report)
  | .ok p =>
    match p.review policy with
    | .error report => .error (.semantics report)
    | .ok warnings => p.build warnings

/-- The image of a source under the default policy. -/
def compileImage (source : String) : Except BuildError (List Byte) :=
  (compile .default source).map Build.image

end DeoLang
