import LoopHoist.Span

/-!
# Diagnostics

A diagnostic is a message about a program, with how severe it is and the place it is about.  Reported
diagnostics are kept in a list, in the order in which they came.
-/

namespace LoopHoist

/-- How severe a diagnostic is. -/
inductive Severity where
  | error
  | warning
  | info
deriving DecidableEq, Repr

/-- The word a diagnostic of this severity starts with. -/
def Severity.label : Severity → String
  | .error => "error"
  | .warning => "warning"
  | .info => "info"

/-- A message about a program. -/
structure Diagnostic where
  severity : Severity
  span : Span
  message : String
deriving DecidableEq, Repr

namespace Diagnostic

/-- A diagnostic as a line of text.  The place is left out when there is none, and on a terminal that
shows styles the label is bold. -/
def format (pretty : Bool) (diagnostic : Diagnostic) : String :=
  let label := diagnostic.severity.label
  let location := if diagnostic.span.isDummy then "" else " at " ++ diagnostic.span.display
  let styled := if pretty then "\x1b[1m" ++ label ++ "\x1b[0m" else label
  styled ++ location ++ ": " ++ diagnostic.message

/-- The number of diagnostics of a severity. -/
def count (severity : Severity) (reported : List Diagnostic) : Nat :=
  reported.countP fun diagnostic => diagnostic.severity == severity

/-- Whether an error was reported. -/
def hasErrors (reported : List Diagnostic) : Bool := 0 < count .error reported

end Diagnostic

end LoopHoist
