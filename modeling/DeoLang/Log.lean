import DeoLang.Build
import DeoLang.Machine.Listing

/-!
# Logs

* `LogLevel`, `LogRecord`, `Log`: the lines of a log, each with its level.
* `Session.log`: what a parsing session did.
* `parseLog`, `reviewLog`, `imageLog`, `compileLog`: what each stage of a build did, in order.
* `Log.upTo`: the records that a reader of a given level sees.
-/

namespace DeoLang

/-- The levels of a log, most severe first. -/
inductive LogLevel where
  | error
  | warn
  | info
  | debug
  | trace
  deriving Repr, DecidableEq

namespace LogLevel

/-- The position among the levels. -/
def rank : LogLevel → Nat
  | error => 1
  | warn => 2
  | info => 3
  | debug => 4
  | trace => 5

/-- The name of a level. -/
def name : LogLevel → String
  | error => "ERROR"
  | warn => "WARN"
  | info => "INFO"
  | debug => "DEBUG"
  | trace => "TRACE"

end LogLevel

/-- A line of a log. -/
structure LogRecord where
  level : LogLevel
  text : String
  deriving Repr, DecidableEq

/-- Records, oldest first. -/
abbrev Log := List LogRecord

/-- The records that are at least as severe as `limit`; without a limit there are none. -/
def Log.upTo (limit : Option LogLevel) (log : Log) : Log :=
  match limit with
  | none => []
  | some limit => log.filter fun r => r.level.rank ≤ limit.rank

/-- The record of a token that came into view. -/
def Token.record (t : Token) : LogRecord :=
  ⟨.trace, "line " ++ decimal t.line ++ ": " ++ t.terminal.describe ++ " " ++ quoteText t.lexeme⟩

/-- The record of an event, if it leaves one. -/
def Event.record? : Event → Option LogRecord
  | lexed t => some t.record
  | suppressed d => some ⟨.debug, "suppressed: " ++ d.render⟩
  | found _ => none
  | recorded _ => none
  | recovered => none

/-- The log of a session so far. -/
def Session.log (s : Session) : Log :=
  s.history.reverse.filterMap Event.record?

/-- The log of a session that has read its whole source. -/
def Session.finishLog (s : Session) : Log :=
  match s.finish with
  | (.ok p, s) =>
    s.log ++ [⟨.debug, "parsed " ++ decimal p.mains.length ++ " declarations"⟩]
  | (.error report, s) =>
    s.log ++ [⟨.debug, "parsing failed with " ++ decimal report.length ++ " errors"⟩]

/-- The log of parsing a source. -/
def parseLog (source : String) : Log :=
  (Session.ofSource source).finishLog

/-- The record of a finding that the policy lets pass. -/
def Finding.allowedRecord (f : Finding) : LogRecord :=
  ⟨.debug, "allowed at line " ++ decimal f.line ++ ": " ++ f.cause.message⟩

/-- The log of reviewing a program. -/
def reviewLog (policy : Policy) (p : Program) : Log :=
  ⟨.debug, "analyzing " ++ decimal p.mains.length ++ " declarations"⟩ ::
    (p.findings.filter fun f => policy.level f.cause = .allow).map Finding.allowedRecord

/-- The log of emitting an image. -/
def imageLog (image : List Byte) : Log :=
  [⟨.debug, "generated image of " ++ decimal image.length ++ " bytes"⟩,
    ⟨.trace, "image listing:\n" ++ listing image⟩]

/-- The log of a finished build. -/
def buildLog (b : Build) : Log :=
  [⟨.debug, "compiled " ++ decimal b.image.length ++ " bytes with " ++
    decimal b.warnings.length ++ " warnings"⟩]

/-- The log of building a program. -/
def Program.buildLog (policy : Policy) (p : Program) : Log :=
  reviewLog policy p ++
    match p.review policy with
    | .error _ => []
    | .ok warnings =>
      imageLog p.image ++
        match p.build warnings with
        | .error _ => []
        | .ok b => DeoLang.buildLog b

/-- The log of compiling a source. -/
def compileLog (policy : Policy) (source : String) : Log :=
  parseLog source ++
    match parse source with
    | .error _ => []
    | .ok p => ⟨.trace, "program: " ++ p.render⟩ :: p.buildLog policy

/-- The log of compiling a source under the default policy, with the warnings at its end. -/
def compileImageLog (source : String) : Log :=
  compileLog .default source ++
    match compile .default source with
    | .error _ => []
    | .ok b => b.warnings.map fun d => ⟨.warn, d.render⟩

end DeoLang
