import LoopHoist.Analysis.Literals
import LoopHoist.Loading
import LoopHoist.Optimizer.Pipeline

/-!
# What is told about a file

Every file is loaded, optimised and printed on its own, with an optimiser of its own.
-/

namespace LoopHoist

/-- What is told about a file that could be optimised. -/
structure Report where
  path : String
  /-- The optimised program. -/
  program : String
  /-- What was done, as one line of JSON, if that was asked for. -/
  stats : Option String
  diagnostics : List Diagnostic

namespace Report

open Document (Value)

/-- Numbers of literals as a value. -/
def literalsValue (count : LiteralCount) : Value :=
  .ofFields
    [("characterExpressions", .integer count.characters),
      ("integerExpressions", .integer count.integers)]

/-- What a pass reports as a value. -/
def summaryValue (summary : String × String) : Value :=
  .ofFields [("pass", .text summary.1), ("summary", .text summary.2)]

/-- What was done to a program as a value. -/
def statsValue (program : Program) (result : Optimizer.Result) : Value :=
  .ofFields
    [("literals", literalsValue program.literals),
      ("passes", .sequence (result.optimizer.summaries.map summaryValue)),
      ("unchanged", .boolean result.replacement.isNone)]

/-- The report about a program. -/
def ofProgram (settings : Settings) (stats : Bool) (path : String) (program : Program) : Report :=
  let result := (Optimizer.ofSettings settings).optimize program
  { path := path
    program := (result.replacement.getD program).print
    stats := if stats then some (Json.compact (statsValue program result)) else none
    diagnostics := result.optimizer.diagnostics }

/-- The report about a file. -/
def ofFile (files : Files) (settings : Settings) (stats : Bool) (path : String) :
    Except Failure Report :=
  (Program.load files path).map (ofProgram settings stats path)

/-- The lines of a report.  Several reports are told apart by their paths. -/
def lines (several : Bool) (report : Report) : List String :=
  (if several then ["== " ++ report.path ++ " =="] else []) ++ [report.program] ++ report.stats.toList

end Report

end LoopHoist
