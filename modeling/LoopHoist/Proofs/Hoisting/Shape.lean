import LoopHoist.Proofs.Hoisting.Blocks
import LoopHoist.Proofs.Sketch
import Mathlib.Logic.Function.Iterate

/-!
# The shape of a command, and why hoisting ends

Hoisting in a loop goes on in the body that extraction leaves, which is no part of the loop.  That
body is rewritten again by every loop inside it, so what keeps the recursion from going on for ever
is not the syntax tree but something that extraction cannot change.

Extraction puts reads of names where there were values, and does nothing else: conditions, targets,
calls, declarations and the way commands are put together stay (`Command.Alike`).  In particular the
number of commands stays (`Command.size_extract`), and it falls from every loop to the body that
hoisting goes on with.

## Strategy

`Command.hoistWith` is a round of hoisting with an argument in place of the recursive calls.  It asks
only about commands with fewer commands in them (`Command.hoistWith_congr`).  So after as many rounds
as the command has commands nothing is asked any more, and what stands in place of further calls does
not matter.
-/

namespace LoopHoist

/-! ## Commands of one shape -/

/-- Whether an expression is the read of a name, without fields or indices. -/
def Expression.IsNameRead : Expression → Prop
  | .read (.simple _ _) _ => True
  | _ => False

/-- The second command is the first one with reads of names in place of some assigned values.  The
spans of the commands are left open. -/
inductive Command.Alike : Command → Command → Prop
  | assign {target value value' span span'} (hvalue : value' = value ∨ value'.IsNameRead) :
      Alike (.assign target value span) (.assign target value' span')
  | call {procedure arguments span span'} :
      Alike (.call procedure arguments span) (.call procedure arguments span')
  | skip {span span'} : Alike (.skip span) (.skip span')
  | ifThenElse {condition thenBranch thenBranch' elseBranch elseBranch' span span'}
      (hthen : Alike thenBranch thenBranch') (helse : Alike elseBranch elseBranch') :
      Alike (.ifThenElse condition thenBranch elseBranch span)
        (.ifThenElse condition thenBranch' elseBranch' span')
  | letIn {declaration body body' span span'} (hbody : Alike body body') :
      Alike (.letIn declaration body span) (.letIn declaration body' span')
  | seq {first first' second second' span span'}
      (hfirst : Alike first first') (hsecond : Alike second second') :
      Alike (.seq first second span) (.seq first' second' span')
  | whileDo {condition body body' span span'} (hbody : Alike body body') :
      Alike (.whileDo condition body span) (.whileDo condition body' span')

/-- How deep loops are nested in a command. -/
def Command.loopDepth : Command → Nat
  | .assign .. | .call .. | .skip _ => 0
  | .ifThenElse _ thenBranch elseBranch _ => max thenBranch.loopDepth elseBranch.loopDepth
  | .letIn _ body _ => body.loopDepth
  | .seq first second _ => max first.loopDepth second.loopDepth
  | .whileDo _ body _ => body.loopDepth + 1

theorem Command.Alike.loopDepth_eq {command command' : Command} (halike : command.Alike command') :
    command'.loopDepth = command.loopDepth := by
  induction halike with
  | assign | call | skip => rfl
  | ifThenElse _ _ ihFirst ihSecond | seq _ _ ihFirst ihSecond =>
      simp only [Command.loopDepth, ihFirst, ihSecond]
  | letIn _ ih => exact ih
  | whileDo _ ih => simp only [Command.loopDepth, ih]

/-- Extraction keeps the shape, whatever names it gave out before. -/
theorem Extracts.alike {assigned : List String} {issued : Nat} {command command' : Command}
    {constants : List Constant} (hextract : Extracts assigned issued command command' constants) :
    command.Alike command' := by
  induction hextract with
  | taken => exact .assign (.inr trivial)
  | left => exact .assign (.inl rfl)
  | call => exact .call
  | skip => exact .skip
  | ifThenElse _ _ ihFirst ihSecond => exact .ifThenElse ihFirst ihSecond
  | letIn _ ih => exact .letIn ih
  | seq _ _ ihFirst ihSecond => exact .seq ihFirst ihSecond
  | whileDo _ ih => exact .whileDo ih

theorem Command.alike_extracted (command : Command) (assigned : List String) (issued : Nat) :
    command.Alike (command.extracted assigned issued) :=
  (extracts_extracted assigned command issued).alike

/-! ## Hoisting round by round -/

/-- A round of hoisting in which `inside` may be asked about any command. -/
def Command.hoistWith (inside : Command → Outcome Command) (command : Command) : Outcome Command :=
  command.hoistRound fun part _ => inside part

/-- Hoisting is a round with hoisting inside. -/
theorem Command.hoist_eq_hoistWith (command : Command) :
    command.hoist = command.hoistWith Command.hoist := by
  rw [Command.hoist, Command.hoistWith]

/-- A round asks only about smaller commands. -/
theorem Command.hoistWith_congr {inside inside' : Command → Outcome Command} {command : Command}
    (hinside : ∀ part : Command, part.size < command.size → inside part = inside' part) :
    command.hoistWith inside = command.hoistWith inside' := by
  have hparts : (fun (part : Command) (_ : part.size < command.size) => inside part) =
      fun part _ => inside' part := by
    funext part hpart
    exact hinside part hpart
  rw [Command.hoistWith, Command.hoistWith, hparts]

theorem Command.size_pos (command : Command) : 0 < command.size := by
  cases command <;> simp [Command.size]

/-- As many rounds as a command has commands do all of the hoisting. -/
theorem Command.iterate_hoistWith (rest : Command → Outcome Command) (rounds : Nat) :
    ∀ command : Command, command.size ≤ rounds →
      (Command.hoistWith^[rounds] rest) command = command.hoist := by
  induction rounds with
  | zero =>
      intro command hsize
      exact absurd command.size_pos (Nat.not_lt.mpr hsize)
  | succ rounds ih =>
      intro command hsize
      -- the last round only asks about smaller commands, and for these the others are enough
      rw [Function.iterate_succ_apply', command.hoist_eq_hoistWith]
      exact Command.hoistWith_congr fun part hpart => ih part (by omega)

/-- **Extraction keeps the shape, so hoisting ends.**  Whatever a loop assigns and whatever names were
given out, extraction leaves a command of the same shape, with as many commands and loops nested as
deep.  Hoisting is done after as many rounds as the command has commands: whatever the calls that are
left after these would answer, the outcome is the same.  And the hoisted command assigns the
variables that the command assigns. -/
theorem Command.extracted_alike_and_hoist_ends (command : Command) (assigned : List String)
    (issued : Nat) :
    (command.Alike (command.extracted assigned issued) ∧
      (command.extracted assigned issued).size = command.size ∧
      (command.extracted assigned issued).loopDepth = command.loopDepth) ∧
    (∀ (rest : Command → Outcome Command) (rounds : Nat), command.size ≤ rounds →
      (Command.hoistWith^[rounds] rest) command = command.hoist) ∧
    command.hoisted.assigned = command.assigned := by
  have halike := command.alike_extracted assigned issued
  have hsize := Command.size_extract assigned command issued
  refine ⟨⟨halike, hsize, halike.loopDepth_eq⟩, ?_, (hoists_hoisted command).assigned_eq⟩
  intro rest rounds hrounds
  exact Command.iterate_hoistWith rest rounds command hrounds

open Sketch in
/-- `while i do begin while j do begin y := k; j := j - 1 end; i := i - 1 end`. -/
def countedNest : Command :=
  loop (var "i")
    [loop (var "j") [assign "y" (var "k"), assign "j" (binary (var "j") "-" (int "1"))],
      assign "i" (binary (var "i") "-" (int "1"))]

/-- The nest has seven commands, and both of its loops take a value; seven rounds are enough. -/
theorem extracted_alike_and_hoist_ends_countedNest :
    countedNest.size = 7 ∧ countedNest.hoist.stats = ⟨2, 2⟩ ∧
      (Command.hoistWith^[7] fun _ => .kept) countedNest = countedNest.hoist ∧
      (countedNest.extracted ["i"] 4).loopDepth = 2 ∧
      countedNest.hoisted.assigned = ["y", "j", "i"] := by
  obtain ⟨⟨_, _, hdepth⟩, hends, hassigned⟩ :=
    countedNest.extracted_alike_and_hoist_ends ["i"] 4
  have hrounds := hends (fun _ => .kept) 7 (by decide)
  refine ⟨rfl, ?_, hrounds, hdepth.trans (by decide), hassigned.trans (by decide)⟩
  rw [← hrounds]
  decide

end LoopHoist
