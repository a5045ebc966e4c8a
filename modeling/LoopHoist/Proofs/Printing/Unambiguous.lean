import LoopHoist.Proofs.Printing.RoundTrip
import LoopHoist.Proofs.Sketch

/-!
# The text of a program determines its tree

Brackets are printed in two places only: around a sequence inside another command, and around a
binary expression that is an operand.  `print_eq_iff_of_legible` says that this is enough: two
programs have the same text exactly if they are the same up to places and the nesting of sequences.

It holds of programs that are spelled as the language asks for, in which no operand is itself open
to the right or starts with an operator symbol after another one.  Of such programs the parser reads
back what was printed (`Parse.program_print`), and what it reads depends on nothing but the text.
-/

namespace LoopHoist

open Parse

/-- With enough fuel the parser reads a program back. -/
theorem Parse.program_print {program : Program}
    (hreadable : (Fragment.command program.command).AllReadable) {fuel : Nat}
    (hfuel : 2 * sizeOf program.command ≤ fuel) :
    Parse.program fuel program.print = some program.canonical := by
  have hparts := program.command.isRead hreadable fuel hfuel
  have hread := sequence_append hparts stops_nil rfl
  rw [List.append_nil] at hread
  rw [Parse.program, Program.print, hread]
  rfl

/-! ## Legible programs -/

/-- Whether an expression is a conditional or has declarations of its own. -/
def Expression.isBranch : Expression → Bool
  | .ifThenElse .. | .letIn .. => true
  | _ => false

/-- The leaves of a fragment are spelled as the language asks for, it is not the empty expression,
and it has no operand that would need brackets it does not get. -/
def Fragment.Legible (fragment : Fragment) : Prop :=
  (∀ leaf ∈ fragment.ownLeaves, leaf.2.Legible) ∧
    match fragment with
    | .expression (.empty _) => False
    | .expression (.unary _ operand _) => operand.isBranch = false ∧ operand.isUnary = false
    | .expression (.binary _ left right _) => left.isBranch = false ∧ right.isBranch = false
    | _ => True

/-- All of a program is legible. -/
def Program.Legible (program : Program) : Prop :=
  ∀ fragment ∈ program.fragments, fragment.Legible

theorem Expression.isOpen_eq_false {expression : Expression}
    (hlegible : (Fragment.expression expression).Legible) (hbranch : expression.isBranch = false) :
    expression.isOpen = false := by
  cases expression with
  | unary operator operand _ =>
      obtain ⟨hoperand, hunary⟩ := hlegible.2
      cases operand with
      | unary => cases hunary
      | ifThenElse => cases hoperand
      | letIn => cases hoperand
      | _ => rfl
  | ifThenElse => cases hbranch
  | letIn => cases hbranch
  | _ => rfl

theorem Program.Legible.allReadable {program : Program} (hlegible : program.Legible) :
    (Fragment.command program.command).AllReadable := by
  intro fragment hfragment
  refine ⟨(hlegible fragment hfragment).1, ?_⟩
  rintro expression rfl
  have hshape := (hlegible _ hfragment).2
  cases expression with
  | empty => exact hshape
  | unary operator operand _ => exact hshape.2
  | binary operator left right _ =>
      -- the left operand is a fragment of the program as well, so it is legible itself
      have hleft : Fragment.expression left ∈ program.fragments :=
        Fragment.mem_fragments_trans
          (Fragment.mem_fragments_iff.mpr (.inr ⟨.expression left, by simp,
            Fragment.mem_fragments_self _⟩)) _ hfragment
      exact Expression.isOpen_eq_false (hlegible _ hleft) hshape.1
  | _ => trivial

/-- **The text of a program determines its tree.**  Two legible programs have the same text exactly
if they are equal up to places and the nesting of sequences of commands and declarations. -/
theorem print_eq_iff_of_legible {first second : Program} (hfirst : first.Legible)
    (hsecond : second.Legible) :
    first.print = second.print ↔ first.canonical = second.canonical := by
  constructor
  · intro hprint
    -- the same fuel is enough for both, so the parser gives the same answer twice
    have hread := program_print hfirst.allReadable
      (show _ ≤ 2 * sizeOf first.command + 2 * sizeOf second.command by omega)
    have hread' := program_print hsecond.allReadable
      (show _ ≤ 2 * sizeOf first.command + 2 * sizeOf second.command by omega)
    rw [hprint, hread'] at hread
    exact (Option.some.inj hread).symm
  · intro hcanonical
    rw [← first.print_canonical, hcanonical, second.print_canonical]

open Sketch

/-- The commands `x := -a + (1 * b)`, `while c do begin p(var x);  end` and
`if c then if d then x := 1 else y := 2 else ` one after the other, with the first two put together,
and with places. -/
def nestedLeft : Program :=
  let place : Span := ⟨1, 2, 3, 4⟩
  ⟨.seq (.seq
      (.assign (.simple (name "x") place)
        (binary (.unary ⟨"-", place⟩ (var "a") place) "+" (binary (int "1") "*" (var "b"))) place)
      (.whileDo (var "c") (.seq (callVar "p" "x") (.skip place) place) place) place)
    (.ifThenElse (var "c") (.ifThenElse (var "d") (assign "x" (int "1")) (assign "y" (int "2"))
      place) (.skip place) place) place, place⟩

/-- The same with the last two commands put together, and without places. -/
def nestedRight : Program :=
  ⟨.seq (assign "x"
      (binary (.unary ⟨"-", .dummy⟩ (var "a") .dummy) "+" (binary (int "1") "*" (var "b"))))
    (.seq (loop (var "c") [callVar "p" "x", .skip .dummy])
      (.ifThenElse (var "c") (.ifThenElse (var "d") (assign "x" (int "1")) (assign "y" (int "2"))
        .dummy) (.skip .dummy) .dummy) .dummy) .dummy, .dummy⟩

/-- Different nesting and places give the same text, and the same canonical form. -/
theorem print_eq_iff_of_legible_nested :
    nestedLeft.Legible ∧ nestedRight.Legible ∧ nestedLeft.print = nestedRight.print ∧
      nestedLeft.command ≠ nestedRight.command ∧
      nestedLeft.canonical = nestedRight.canonical := by
  have hname : ∀ word ∈ ["x", "a", "b", "c", "d", "p", "y"], IsName word := by decide
  have hleft : nestedLeft.Legible := by
    simp [Program.Legible, Program.fragments, nestedLeft, Fragment.fragments_eq, Fragment.Legible,
      binary, var, Sketch.name, int, assign, callVar, Expression.isBranch, Expression.isUnary,
      Terminal.Legible, Terminal.WellSpelled, isOperatorChar, hname]
  have hright : nestedRight.Legible := by
    simp [Program.Legible, Program.fragments, nestedRight, Fragment.fragments_eq, Fragment.Legible,
      binary, var, Sketch.name, int, assign, callVar, loop, Command.seqAll, Expression.isBranch,
      Expression.isUnary, Terminal.Legible, Terminal.WellSpelled, isOperatorChar, hname]
  have hprint : nestedLeft.print = nestedRight.print := by decide
  have hcommand : nestedLeft.command ≠ nestedRight.command := by
    simp [nestedLeft, nestedRight, assign]
  exact ⟨hleft, hright, hprint, hcommand, (print_eq_iff_of_legible hleft hright).mp hprint⟩

end LoopHoist
