import LoopHoist.Level

/-!
# Settings

What a user can choose.  Settings come from a file, or are the defaults, and the command line may
override each of them.
-/

namespace LoopHoist

/-- What a user can choose. -/
structure Settings where
  /-- How hard the optimiser tries. -/
  level : Level
  /-- Whether loop invariants are hoisted. -/
  hoist : Bool
  /-- Whether diagnostics are styled for a terminal. -/
  pretty : Bool
deriving DecidableEq, Repr

instance : Inhabited Settings := ⟨⟨.O1, true, true⟩⟩

/-- Choices that take precedence over the settings; what is not given leaves them alone. -/
structure Overrides where
  level : Option Level := none
  hoist : Option Bool := none
  pretty : Option Bool := none
deriving DecidableEq, Repr

/-- Settings with the given choices put over them. -/
def Settings.merge (settings : Settings) (overrides : Overrides) : Settings where
  level := overrides.level.getD settings.level
  hoist := overrides.hoist.getD settings.hoist
  pretty := overrides.pretty.getD settings.pretty

end LoopHoist
