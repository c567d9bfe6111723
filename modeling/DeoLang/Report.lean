import DeoLang.Text.Decimal

/-!
# Reports

* `Diagnostic`: a message about one line of a source.
* `Report`: diagnostics in the order in which they were found.
* `Report.render`: the text of a report, one line for each diagnostic.
* `prefix_toList_append`: the start of a message does not depend on what is put behind it.
-/

namespace DeoLang

/-- Whether a diagnostic rejects the source. -/
inductive Severity where
  | error
  | warning
  deriving Repr, DecidableEq

/-- The word that names a severity. -/
def Severity.name : Severity → String
  | error => "error"
  | warning => "warning"

/-- A message about one line of a source. -/
structure Diagnostic where
  severity : Severity
  line : Nat
  message : String
  deriving Repr, DecidableEq

namespace Diagnostic

/-- Whether the diagnostic rejects the source. -/
def isError (d : Diagnostic) : Bool :=
  d.severity = .error

/-- The text of a diagnostic: its severity, its line and its message. -/
def render (d : Diagnostic) : String :=
  d.severity.name ++ " at line " ++ decimal d.line ++ ": " ++ d.message

end Diagnostic

/-- Diagnostics, oldest first. -/
abbrev Report := List Diagnostic

namespace Report

/-- The report with one more diagnostic at its end. -/
def push (r : Report) (d : Diagnostic) : Report :=
  r ++ [d]

/-- Whether some diagnostic rejects the source. -/
def hasErrors (r : Report) : Bool :=
  r.any Diagnostic.isError

/-- The errors of a report. -/
def errors (r : Report) : Report :=
  r.filter Diagnostic.isError

/-- The warnings of a report. -/
def warnings (r : Report) : Report :=
  r.filter fun d => !d.isError

/-- One line for each diagnostic, without a line break at the end. -/
def render (r : Report) : String :=
  "\n".intercalate (r.map Diagnostic.render)

end Report

theorem prefix_toList_append {front : List Char} {s : String} (t : String)
    (h : front <+: s.toList) : front <+: (s ++ t).toList :=
  h.trans ⟨t.toList, String.toList_append.symm⟩

end DeoLang
