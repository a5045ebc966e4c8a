/-!
# Optimisation levels

How hard the optimiser tries.  At `O0` it does nothing; a pass says from which level on it runs, so
levels are ordered.
-/

namespace LoopHoist

/-- How hard the optimiser tries. -/
inductive Level where
  | O0
  | O1
  | O2
deriving DecidableEq, Repr, Inhabited

namespace Level

/-- All levels, from the lowest. -/
def all : List Level := [.O0, .O1, .O2]

/-- The place of a level among the others. -/
def rank : Level → Nat
  | .O0 => 0
  | .O1 => 1
  | .O2 => 2

instance : LE Level := ⟨fun a b => a.rank ≤ b.rank⟩

instance : LT Level := ⟨fun a b => a.rank < b.rank⟩

instance (a b : Level) : Decidable (a ≤ b) := inferInstanceAs (Decidable (a.rank ≤ b.rank))

instance (a b : Level) : Decidable (a < b) := inferInstanceAs (Decidable (a.rank < b.rank))

instance : Ord Level := ⟨fun a b => compare a.rank b.rank⟩

/-- The name of a level. -/
def name : Level → String
  | .O0 => "O0"
  | .O1 => "O1"
  | .O2 => "O2"

/-- The level of exactly this name. -/
def ofName? (name : String) : Option Level := all.find? fun level => level.name == name

/-- The level a user asks for.  Any number of letters `O` or `o` may stand before the digit. -/
def parse? (text : String) : Option Level :=
  match text.toList.dropWhile fun c => c == 'O' || c == 'o' with
  | ['0'] => some .O0
  | ['1'] => some .O1
  | ['2'] => some .O2
  | _ => none

end Level

end LoopHoist
