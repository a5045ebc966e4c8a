import LoopHoist.Hoisting.Hoist

/-!
# Passes

A pass turns programs into programs and keeps a state from one run to the next, from which it can sum up
what it has done so far.  The state is the pass's own business: two passes in one list may have states
of different types.
-/

namespace LoopHoist

/-- What one run of a pass with states of type `σ` gives. -/
structure PassStep (σ : Type) where
  /-- The state after the run. -/
  state : σ
  /-- The program that takes the place of the input, if the pass changed anything. -/
  replacement : Option Program
  events : List Event

/-- A transformation of programs. -/
structure Pass where
  name : String
  /-- The lowest level at which the pass runs. -/
  minLevel : Level
  State : Type
  /-- The state the pass is in. -/
  state : State
  step : State → Program → PassStep State
  /-- What the pass has done so far, in one line, if it has done anything. -/
  summarize : State → Option String

namespace Pass

/-- What the pass has to report. -/
def summary (pass : Pass) : Option String := pass.summarize pass.state

/-- What running a pass gives: the pass in its new state, and what replaces the program. -/
structure Result where
  pass : Pass
  replacement : Option Program
  events : List Event

/-- Runs a pass on a program. -/
def run (pass : Pass) (program : Program) : Result :=
  let step := pass.step pass.state program
  ⟨{ pass with state := step.state }, step.replacement, step.events⟩

end Pass

/-! ## Hoisting as a pass -/

/-- What hoisting has done so far; nothing is said while no value was hoisted. -/
def HoistingStats.summary (stats : HoistingStats) : Option String :=
  if stats.constantsHoisted = 0 then none
  else some
    ("hoisted " ++ toString stats.constantsHoisted ++ " loop-invariant expression(s) out of " ++
      toString stats.loopsRewritten ++ " loop(s)")

/-- Hoists in a program and adds the account of the run to the account so far. -/
def HoistingStats.step (stats : HoistingStats) (program : Program) : PassStep HoistingStats :=
  let outcome := program.hoist
  ⟨stats + outcome.stats, outcome.replacement, outcome.events⟩

/-- Loop-invariant hoisting, with nothing hoisted yet. -/
def Pass.hoisting : Pass where
  name := "loop-hoisting"
  minLevel := .O1
  State := HoistingStats
  state := 0
  step := HoistingStats.step
  summarize := HoistingStats.summary

end LoopHoist
