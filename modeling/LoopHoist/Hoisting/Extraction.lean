import LoopHoist.Analysis.Names
import LoopHoist.Triangle.Equality
import LoopHoist.Analysis.Purity

/-!
# Taking invariant values out of a loop body

An assignment `v := e` in the body of a loop has an invariant value when `e` is pure and reads no
variable that the body assigns.  Extraction replaces such a value by the read of a constant `$h1`,
`$h2`, … and lists the constants in the order in which the assignments stand, through sequences, both
arms of conditionals, nested loops and blocks.

A command in which nothing is extracted is kept as it is, spans and all; only the commands on the way
to an extracted value are built anew, and those carry the dummy span.

## Why the shape matters

Extraction changes values of assignments and nothing else.  `size_extract` says what the recursion over
nested loops needs of that: the body that comes out has as many commands as the one that went in.
-/

namespace LoopHoist

/-- A constant that holds an extracted value. -/
structure Constant where
  name : String
  value : Expression
deriving DecidableEq

/-- The name of the `n`-th value taken out of a loop.  Counting has no upper end here; a counter of 32
bits gives the same names as long as one loop has fewer than 2³² values to take out. -/
def hoistedName (n : Nat) : String := "$h" ++ toString n

/-- An identifier that no source text spells. -/
def Identifier.invented (name : String) : Identifier := ⟨name, .dummy⟩

/-- The declaration of a constant. -/
def Constant.declaration (constant : Constant) : Declaration :=
  .const (.invented constant.name) constant.value .dummy

/-- The read of a constant. -/
def Constant.reading (constant : Constant) : Expression :=
  .read (.simple (.invented constant.name) .dummy) .dummy

/-- The value of an assignment can be taken out of a loop that assigns the given variables. -/
def Expression.isInvariant (assigned : List String) (value : Expression) : Bool :=
  value.isPure && value.avoids assigned

/-- A node with two parts is built anew when one of them was replaced, and kept when none was. -/
def rebuildPair {α β : Type} (build : α → α → β) (first second : α) : Option α → Option α → Option β
  | none, none => none
  | first', second' => some (build (first'.getD first) (second'.getD second))

/-- What does not tell a kept node from one built anew can be read off the parts as they are now. -/
theorem of_getD_rebuildPair {α β γ : Type} (f : β → γ) {build : α → α → β} {first second : α}
    {whole : β} (hwhole : f whole = f (build first second)) (first' second' : Option α) :
    f ((rebuildPair build first second first' second').getD whole) =
      f (build (first'.getD first) (second'.getD second)) := by
  cases first' <;> cases second' <;> simp [rebuildPair, hwhole]

theorem of_getD_map {α β γ : Type} (f : β → γ) {build : α → β} {part : α} {whole : β}
    (hwhole : f whole = f (build part)) (part' : Option α) :
    f ((part'.map build).getD whole) = f (build (part'.getD part)) := by
  cases part' <;> simp [hwhole]

/-- What extraction makes of a command: the command that takes its place, if any value was taken out
of it, and the constants for those values. -/
structure Extraction where
  replacement : Option Command
  constants : List Constant

/-- Takes the invariant values out of a command, where `issued` names have been given out before in
the same loop. -/
def Command.extract (assigned : List String) (issued : Nat) : Command → Extraction
  | .assign target value _ =>
      if value.isInvariant assigned then
        let constant : Constant := ⟨hoistedName (issued + 1), value⟩
        ⟨some (.assign target constant.reading .dummy), [constant]⟩
      else ⟨none, []⟩
  | .call .. | .skip _ => ⟨none, []⟩
  | .ifThenElse condition thenBranch elseBranch _ =>
      let inThen := thenBranch.extract assigned issued
      let inElse := elseBranch.extract assigned (issued + inThen.constants.length)
      ⟨rebuildPair (fun t e => .ifThenElse condition t e .dummy) thenBranch elseBranch
          inThen.replacement inElse.replacement,
        inThen.constants ++ inElse.constants⟩
  | .letIn declaration body _ =>
      let inBody := body.extract assigned issued
      ⟨inBody.replacement.map fun b => .letIn declaration b .dummy, inBody.constants⟩
  | .seq first second _ =>
      let inFirst := first.extract assigned issued
      let inSecond := second.extract assigned (issued + inFirst.constants.length)
      ⟨rebuildPair (fun c d => .seq c d .dummy) first second
          inFirst.replacement inSecond.replacement,
        inFirst.constants ++ inSecond.constants⟩
  | .whileDo condition body _ =>
      let inBody := body.extract assigned issued
      ⟨inBody.replacement.map fun b => .whileDo condition b .dummy, inBody.constants⟩

/-- What a command is after extraction. -/
def Command.extracted (assigned : List String) (issued : Nat) (command : Command) : Command :=
  (command.extract assigned issued).replacement.getD command

/-! ## Extraction keeps the number of commands -/

/-- The number of commands that a command is made of. -/
def Command.size : Command → Nat
  | .assign .. | .call .. | .skip _ => 1
  | .ifThenElse _ thenBranch elseBranch _ => thenBranch.size + elseBranch.size + 1
  | .letIn _ body _ => body.size + 1
  | .seq first second _ => first.size + second.size + 1
  | .whileDo _ body _ => body.size + 1

theorem Command.size_extract (assigned : List String) :
    ∀ (command : Command) (issued : Nat), (command.extracted assigned issued).size = command.size
  | .assign target value span, issued => by
      unfold Command.extracted Command.extract
      split <;> rfl
  | .call .., _ | .skip _, _ => rfl
  | .ifThenElse condition thenBranch elseBranch span, issued => by
      have hThen := thenBranch.size_extract assigned issued
      have hElse := elseBranch.size_extract assigned
        (issued + (thenBranch.extract assigned issued).constants.length)
      unfold Command.extracted at *
      rw [Command.extract, of_getD_rebuildPair Command.size (by rfl), Command.size, hThen, hElse,
        Command.size]
  | .letIn declaration body span, issued => by
      have hBody := body.size_extract assigned issued
      unfold Command.extracted at *
      rw [Command.extract, of_getD_map Command.size (by rfl), Command.size, hBody, Command.size]
  | .seq first second span, issued => by
      have hFirst := first.size_extract assigned issued
      have hSecond := second.size_extract assigned
        (issued + (first.extract assigned issued).constants.length)
      unfold Command.extracted at *
      rw [Command.extract, of_getD_rebuildPair Command.size (by rfl), Command.size, hFirst, hSecond,
        Command.size]
  | .whileDo condition body span, issued => by
      have hBody := body.size_extract assigned issued
      unfold Command.extracted at *
      rw [Command.extract, of_getD_map Command.size (by rfl), Command.size, hBody, Command.size]

/-! ## What hoisting goes on with is smaller -/

namespace Command

variable {condition : Expression} {declaration : Declaration}
  {thenBranch elseBranch first second body : Command} {span : Span}

theorem size_thenBranch_lt :
    thenBranch.size < (ifThenElse condition thenBranch elseBranch span).size := by
  rw [size]
  omega

theorem size_elseBranch_lt :
    elseBranch.size < (ifThenElse condition thenBranch elseBranch span).size := by
  rw [size]
  omega

theorem size_first_lt : first.size < (seq first second span).size := by
  rw [size]
  omega

theorem size_second_lt : second.size < (seq first second span).size := by
  rw [size]
  omega

theorem size_block_lt : body.size < (letIn declaration body span).size := by
  rw [size]
  omega

/-- The body after extraction is no part of the loop, but it has the size of one. -/
theorem size_extracted_lt {assigned : List String} {issued : Nat} :
    (body.extracted assigned issued).size < (whileDo condition body span).size := by
  rw [size_extract, size]
  omega

end Command

end LoopHoist
