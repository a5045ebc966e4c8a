import LoopHoist.Diagnostic
import LoopHoist.Optimizer.Pass
import LoopHoist.Settings

/-!
# Running passes in order

An optimiser holds a level and a list of passes.  Running it on a program puts the program through every
pass that runs at that level, in the order in which the passes were registered, and then reports what
the passes have to say.  Passes keep their states between runs, so their summaries add up.

At `O0` nothing runs and nothing is reported.
-/

namespace LoopHoist

/-- What running a list of passes gives. -/
structure PassesRun where
  /-- The passes after the run; those that were skipped are as they were. -/
  passes : List Pass
  /-- What replaces the program, if some pass changed it. -/
  replacement : Option Program
  events : List Event
  /-- How many passes ran. -/
  ran : Nat

/-- Puts a program through those of the passes that run at this level. -/
def runPasses (level : Level) : List Pass → Program → PassesRun
  | [], _ => ⟨[], none, [], 0⟩
  | pass :: rest, program =>
      if level < pass.minLevel then
        let later := runPasses level rest program
        ⟨pass :: later.passes, later.replacement,
          .skipping pass.name pass.minLevel :: later.events, later.ran⟩
      else
        let now := pass.run program
        let later := runPasses level rest (now.replacement.getD program)
        ⟨now.pass :: later.passes, later.replacement <|> now.replacement,
          now.events ++ later.events, later.ran + 1⟩

/-- A level, the passes registered so far and the diagnostics reported so far. -/
structure Optimizer where
  level : Level
  passes : List Pass
  diagnostics : List Diagnostic

namespace Optimizer

/-- The optimiser that settings ask for. -/
def ofSettings (settings : Settings) : Optimizer where
  level := settings.level
  passes := if settings.hoist then [.hoisting] else []
  diagnostics := []

/-- Registers a pass after the others. -/
def addPass (optimizer : Optimizer) (pass : Pass) : Optimizer :=
  { optimizer with passes := optimizer.passes ++ [pass] }

/-- The names of the registered passes. -/
def passNames (optimizer : Optimizer) : List String := optimizer.passes.map Pass.name

/-- The passes that have something to report, with what they report. -/
def summaries (optimizer : Optimizer) : List (String × String) :=
  optimizer.passes.filterMap fun pass => pass.summary.map fun summary => (pass.name, summary)

/-- The diagnostic that tells what a pass reports. -/
def summaryDiagnostic (summary : String × String) : Diagnostic :=
  ⟨.info, .dummy, summary.1 ++ ": " ++ summary.2⟩

/-- What running an optimiser on a program gives. -/
structure Result where
  optimizer : Optimizer
  /-- What replaces the program, if some pass changed it. -/
  replacement : Option Program
  events : List Event

/-- Runs an optimiser on a program. -/
def optimize (optimizer : Optimizer) (program : Program) : Result :=
  match optimizer.level with
  | .O0 => ⟨optimizer, none, []⟩
  | level =>
      let run := runPasses level optimizer.passes program
      let after := { optimizer with passes := run.passes }
      ⟨{ after with diagnostics := after.diagnostics ++ after.summaries.map summaryDiagnostic },
        run.replacement, run.events ++ [.ran run.ran level]⟩

end Optimizer

end LoopHoist
