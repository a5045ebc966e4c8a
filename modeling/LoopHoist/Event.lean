import LoopHoist.Level
import LoopHoist.Triangle.Printer

/-!
# What a run tells while it works

A run of the optimiser can be followed by its events.  They are values: a run returns the list of what
happened, in order, and only `Event.text` knows how each is worded.
-/

namespace LoopHoist

/-- Something that happened during a run. -/
inductive Event where
  /-- The value of an assignment was found invariant and was given this name. -/
  | hoisting (value : Expression) (name : String)
  /-- So many values were moved out of the loop with this condition. -/
  | hoisted (count : Nat) (condition : Expression)
  /-- A pass was left out because it runs only from a higher level on. -/
  | skipping (pass : String) (needs : Level)
  /-- So many passes were run at this level. -/
  | ran (count : Nat) (level : Level)

namespace Event

/-- Whether an event is a detail, of interest only to someone following the passes. -/
def isDetail : Event → Bool
  | .hoisting .. | .hoisted .. | .skipping .. => true
  | .ran .. => false

/-- The wording of an event. -/
def text : Event → String
  | .hoisting value name => "Hoisting " ++ value.print ++ " as " ++ name
  | .hoisted count condition =>
      "Hoisted " ++ toString count ++ " loop-invariant expression(s) out of while " ++ condition.print
  | .skipping pass needs => "Skipping " ++ pass ++ " (needs " ++ needs.name ++ ")"
  | .ran count level => "Ran " ++ toString count ++ " optimization pass(es) at " ++ level.name

/-- An event as a line of a log: how important it is, then its wording. -/
def line (event : Event) : String :=
  (if event.isDetail then "DEBUG " else "INFO ") ++ event.text

end Event

end LoopHoist
