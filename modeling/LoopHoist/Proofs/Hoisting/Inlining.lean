import LoopHoist.Proofs.Hoisting.Blocks
import LoopHoist.Proofs.Sketch

/-!
# Inlining undoes hoisting

A hoisted program still holds everything the program had: putting the values of the added constants
back where the constants are read gives the program again.  `Command.expand` does that.  It goes
from the innermost block of reserved constants outwards; at each one the loop takes the place of its
block, and every assigned value in the body that is the read of one of the constants becomes the
value of that constant, all constants at once.

Hoisting builds commands anew, so the two programs agree up to spans.  Only those of commands
differ: `Command.bare` puts the dummy span on every command and touches nothing else.

## Strategy

The names start again at `$h1` in every loop, so in the middle of a nest one and the same name can
stand for a constant of the outer and of the inner loop.  The induction over the rules of hoisting
needs no record of who owns which name: its hypothesis is about the body *after* the extraction of
the outer loop, in which the reads of outer constants are ordinary values.  When the inner blocks
are gone these reads are back, and `bare_inlined_of_extracts` replaces exactly them, because a value
that extraction leaves in place is never the read of a reserved name (`isInvariant_of_isReading`).
-/

namespace LoopHoist

/-! ## Commands up to their spans -/

/-- A command with the dummy span on every command in it. -/
def Command.bare : Command → Command
  | .assign target value _ => .assign target value .dummy
  | .call procedure arguments _ => .call procedure arguments .dummy
  | .skip _ => .skip .dummy
  | .ifThenElse condition thenBranch elseBranch _ =>
      .ifThenElse condition thenBranch.bare elseBranch.bare .dummy
  | .letIn declaration body _ => .letIn declaration body.bare .dummy
  | .seq first second _ => .seq first.bare second.bare .dummy
  | .whileDo condition body _ => .whileDo condition body.bare .dummy

/-- A program with the dummy span on itself and on every command in it. -/
def Program.bare (program : Program) : Program := ⟨program.command.bare, .dummy⟩

theorem Command.values_bare : ∀ command : Command, command.bare.values = command.values
  | .assign .. | .call .. | .skip _ => rfl
  | .ifThenElse _ first second _ | .seq first second _ => by
      simp only [Command.bare, Command.values, first.values_bare, second.values_bare]
  | .letIn _ body _ | .whileDo _ body _ => by
      simp only [Command.bare, Command.values, body.values_bare]

theorem Command.assigned_bare : ∀ command : Command, command.bare.assigned = command.assigned
  | .assign .. | .call .. | .skip _ => rfl
  | .ifThenElse _ first second _ | .seq first second _ => by
      simp only [Command.bare, Command.assigned, first.assigned_bare, second.assigned_bare]
  | .letIn _ body _ | .whileDo _ body _ => by
      simp only [Command.bare, Command.assigned, body.assigned_bare]

/-! ## Reads of constants -/

/-- Whether an expression is nothing but the read of a reserved name. -/
def Expression.isReading : Expression → Bool
  | .read (.simple name _) _ => decide (Reserved name.spelling)
  | _ => false

/-- The value of the first constant with the given name. -/
def Constant.valueOf? (constants : List Constant) (name : String) : Option Expression :=
  (constants.find? fun constant => constant.name = name).map Constant.value

/-- The value that an expression stands for when the given constants are inlined. -/
def Expression.inlined (constants : List Constant) : Expression → Expression
  | .read (.simple name span) span' =>
      (Constant.valueOf? constants name.spelling).getD (.read (.simple name span) span')
  | expression => expression

theorem Expression.exists_of_isReading {expression : Expression}
    (hreading : expression.isReading = true) :
    ∃ name span span', expression = .read (.simple name span) span' ∧ Reserved name.spelling := by
  unfold Expression.isReading at hreading
  split at hreading
  · exact ⟨_, _, _, rfl, of_decide_eq_true hreading⟩
  · simp at hreading

theorem Expression.not_isReading {expression : Expression}
    (hfree : ∀ name ∈ expression.free, ¬ Reserved name) : expression.isReading = false := by
  cases hreading : expression.isReading with
  | false => rfl
  | true =>
      obtain ⟨name, span, span', rfl, hname⟩ := Expression.exists_of_isReading hreading
      exact absurd hname (hfree name.spelling (by simp [Expression.free, Vname.free]))

theorem Expression.isInvariant_iff {value : Expression} {assigned : List String} :
    value.isInvariant assigned = true ↔
      value.isPure = true ∧ ∀ name ∈ value.free, name ∉ assigned := by
  simp [Expression.isInvariant, Expression.avoids]

/-- Nobody assigns a reserved name, so the read of one is invariant for every loop. -/
theorem isInvariant_of_isReading {expression : Expression} {assigned : List String}
    (hassigned : ∀ name ∈ assigned, ¬ Reserved name) (hreading : expression.isReading = true) :
    expression.isInvariant assigned = true := by
  obtain ⟨name, span, span', rfl, hname⟩ := Expression.exists_of_isReading hreading
  refine Expression.isInvariant_iff.mpr ⟨rfl, fun other hother hmem => ?_⟩
  obtain rfl : other = name.spelling := by simpa [Expression.free, Vname.free] using hother
  exact hassigned _ hmem hname

/-- So a value that stays in a loop is never the read of a reserved name. -/
theorem isReading_eq_false_of_not_isInvariant {expression : Expression} {assigned : List String}
    (hassigned : ∀ name ∈ assigned, ¬ Reserved name)
    (hinvariant : expression.isInvariant assigned = false) : expression.isReading = false := by
  cases hreading : expression.isReading with
  | false => rfl
  | true =>
      rw [isInvariant_of_isReading hassigned hreading] at hinvariant
      exact hinvariant

theorem Constant.valueOf?_eq_none {constants : List Constant} {name : String}
    (hname : ∀ constant ∈ constants, constant.name ≠ name) :
    Constant.valueOf? constants name = none := by
  simpa [Constant.valueOf?] using hname

theorem Constant.valueOf?_of_mem {constants : List Constant}
    (hnodup : (constants.map Constant.name).Nodup) {constant : Constant}
    (hmem : constant ∈ constants) :
    Constant.valueOf? constants constant.name = some constant.value := by
  induction constants with
  | nil => simp at hmem
  | cons first rest ih =>
      rw [List.map_cons, List.nodup_cons] at hnodup
      rcases List.mem_cons.mp hmem with rfl | hrest
      · simp [Constant.valueOf?]
      · -- the names differ, so the search goes on past the first constant
        have hne : first.name ≠ constant.name := fun hname =>
          hnodup.1 (hname ▸ List.mem_map_of_mem hrest)
        have ih := ih hnodup.2 hrest
        simpa [Constant.valueOf?, hne] using ih

/-- The value with constants inlined is the value itself or that of a constant. -/
theorem Expression.inlined_induction {holds : Expression → Prop} {constants : List Constant}
    {value : Expression} (hvalue : holds value)
    (hconstants : ∀ constant ∈ constants, holds constant.value) :
    holds (value.inlined constants) := by
  unfold Expression.inlined
  split
  · rename_i name span span'
    unfold Constant.valueOf?
    cases hfind : constants.find? fun constant => constant.name = name.spelling with
    | none => exact hvalue
    | some constant => exact hconstants constant (List.mem_of_find?_eq_some hfind)
  · exact hvalue

theorem Expression.inlined_of_not_isReading {constants : List Constant}
    (hreserved : ∀ constant ∈ constants, Reserved constant.name) {expression : Expression}
    (hreading : expression.isReading = false) : expression.inlined constants = expression := by
  unfold Expression.inlined
  split
  · rename_i name span span'
    have hname : ¬ Reserved name.spelling := by simpa [Expression.isReading] using hreading
    have hnone : Constant.valueOf? constants name.spelling = none := by
      refine Constant.valueOf?_eq_none fun constant hmem heq => hname ?_
      rw [← heq]
      exact hreserved constant hmem
    rw [hnone, Option.getD_none]
  · rfl

theorem Constant.inlined_reading {constants : List Constant}
    (hnodup : (constants.map Constant.name).Nodup) {constant : Constant}
    (hmem : constant ∈ constants) : constant.reading.inlined constants = constant.value := by
  simp [Constant.reading, Expression.inlined, Identifier.invented,
    Constant.valueOf?_of_mem hnodup hmem]

/-! ## Inlining in commands -/

/-- Puts the values of constants where an assignment only reads them. -/
def Command.inlined (constants : List Constant) : Command → Command
  | .assign target value span => .assign target (value.inlined constants) span
  | .call procedure arguments span => .call procedure arguments span
  | .skip span => .skip span
  | .ifThenElse condition thenBranch elseBranch span =>
      .ifThenElse condition (thenBranch.inlined constants) (elseBranch.inlined constants) span
  | .letIn declaration body span => .letIn declaration (body.inlined constants) span
  | .seq first second span => .seq (first.inlined constants) (second.inlined constants) span
  | .whileDo condition body span => .whileDo condition (body.inlined constants) span

theorem Expression.inlined_nil (expression : Expression) : expression.inlined [] = expression := by
  unfold Expression.inlined
  split <;> simp [Constant.valueOf?]

theorem Command.inlined_nil : ∀ command : Command, command.inlined [] = command
  | .assign _ value _ => by simp only [Command.inlined, value.inlined_nil]
  | .call .. | .skip _ => rfl
  | .ifThenElse _ thenBranch elseBranch _ => by
      simp only [Command.inlined, thenBranch.inlined_nil, elseBranch.inlined_nil]
  | .letIn _ body _ | .whileDo _ body _ => by simp only [Command.inlined, body.inlined_nil]
  | .seq first second _ => by
      simp only [Command.inlined, first.inlined_nil, second.inlined_nil]

theorem Command.bare_inlined (constants : List Constant) :
    ∀ command : Command, (command.inlined constants).bare = command.bare.inlined constants
  | .assign .. | .call .. | .skip _ => rfl
  | .ifThenElse _ thenBranch elseBranch _ => by
      simp only [Command.inlined, Command.bare, thenBranch.bare_inlined, elseBranch.bare_inlined]
  | .letIn _ body _ | .whileDo _ body _ => by
      simp only [Command.inlined, Command.bare, body.bare_inlined]
  | .seq first second _ => by
      simp only [Command.inlined, Command.bare, first.bare_inlined, second.bare_inlined]

/-- Inlining the constants of a loop in what extraction left of its body gives the body again.  The
constants may be more than those of the command at hand: the parts of a body share them. -/
theorem bare_inlined_of_extracts {assigned : List String} {issued : Nat}
    {command command' : Command} {constants all : List Constant}
    (hextract : Extracts assigned issued command command' constants)
    (hassigned : ∀ name ∈ assigned, ¬ Reserved name)
    (hreserved : ∀ constant ∈ all, Reserved constant.name)
    (hnodup : (all.map Constant.name).Nodup) (hall : constants ⊆ all) :
    (command'.inlined all).bare = command.bare := by
  induction hextract with
  | taken hvalue =>
      -- the read in the place of the value is the read of its own constant
      have hmem := hall (List.mem_singleton.mpr rfl)
      simp only [Command.inlined, Command.bare, Constant.inlined_reading hnodup hmem]
  | left hvalue =>
      -- a value that was left reads no constant, so inlining passes it by
      have hreading := isReading_eq_false_of_not_isInvariant hassigned hvalue
      simp only [Command.inlined, Command.bare,
        Expression.inlined_of_not_isReading hreserved hreading]
  | call | skip => rfl
  | ifThenElse _ _ ihFirst ihSecond | seq _ _ ihFirst ihSecond =>
      rw [List.append_subset] at hall
      simp only [Command.inlined, Command.bare, ihFirst hall.1, ihSecond hall.2]
  | letIn _ ih | whileDo _ ih => simp only [Command.inlined, Command.bare, ih hall]

/-- The same for what the loops inside the body have been expanded to. -/
theorem Extracts.bare_inlined {body middle expanded : Command} {constants : List Constant}
    (hextract : Extracts body.assigned 0 body middle constants) (hbody : body.KeepsReserved)
    (hexpanded : expanded.bare = middle.bare) : (expanded.inlined constants).bare = body.bare := by
  rw [Command.bare_inlined, hexpanded, ← Command.bare_inlined]
  exact bare_inlined_of_extracts hextract (fun _ => Command.not_reserved_of_assigned _ hbody)
    (fun _ => hextract.reserved_name) hextract.nodup_names (List.Subset.refl _)

/-- Putting copies in the place of values changes no value. -/
theorem Extracts.bare_eq_of_copies {assigned : List String} {issued : Nat}
    {command command' : Command} {constants : List Constant}
    (hextract : Extracts assigned issued command command' constants)
    (hcopies : ∀ constant ∈ constants, constant.value = constant.reading) :
    command'.bare = command.bare := by
  induction hextract with
  | @taken issued target value =>
      have hvalue : value = Constant.reading ⟨hoistedName (issued + 1), value⟩ :=
        hcopies _ List.mem_cons_self
      simp only [Command.bare, ← hvalue]
  | left | call | skip => rfl
  | ifThenElse _ _ ihFirst ihSecond | seq _ _ ihFirst ihSecond =>
      rw [List.forall_mem_append] at hcopies
      simp only [Command.bare, ihFirst hcopies.1, ihSecond hcopies.2]
  | letIn _ ih | whileDo _ ih => simp only [Command.bare, ih hcopies]

/-! ## Expanding the blocks of constants -/

/-- Puts a loop in the place of every block of constants around it.  `settle` says which values are
inlined for the constants of a block. -/
def Command.expandBy (settle : List Constant → List Constant) : Command → Command
  | .assign target value span => .assign target value span
  | .call procedure arguments span => .call procedure arguments span
  | .skip span => .skip span
  | .ifThenElse condition thenBranch elseBranch span =>
      .ifThenElse condition (thenBranch.expandBy settle) (elseBranch.expandBy settle) span
  | .letIn declaration (.whileDo condition body span) span' =>
      match declaration.constants? with
      | some constants =>
          .whileDo condition ((body.expandBy settle).inlined (settle constants)) span
      | none => .letIn declaration (.whileDo condition (body.expandBy settle) span) span'
  | .letIn declaration body span => .letIn declaration (body.expandBy settle) span
  | .seq first second span => .seq (first.expandBy settle) (second.expandBy settle) span
  | .whileDo condition body span => .whileDo condition (body.expandBy settle) span

theorem Command.expandBy_letIn_of_none {settle : List Constant → List Constant}
    {declaration : Declaration} {body : Command} {span : Span}
    (hnone : declaration.constants? = none) :
    (Command.letIn declaration body span).expandBy settle =
      .letIn declaration (body.expandBy settle) span := by
  cases body <;> simp [Command.expandBy, hnone]

theorem Command.expandBy_letIn_whileDo_of_some {settle : List Constant → List Constant}
    {declaration : Declaration} {condition : Expression} {body : Command}
    {constants : List Constant} {span span' : Span}
    (hsome : declaration.constants? = some constants) :
    (Command.letIn declaration (.whileDo condition body span) span').expandBy settle =
      .whileDo condition ((body.expandBy settle).inlined (settle constants)) span := by
  simp [Command.expandBy, hsome]

/-- Puts a loop in the place of every block of constants around it, with the value of each constant
where it was read. -/
def Command.expand (command : Command) : Command := command.expandBy id

/-- Expands the command of a program. -/
def Program.expand (program : Program) : Program := ⟨program.command.expand, program.span⟩

/-- What expanding the hoisted form of a command gives, spans aside. -/
inductive Expands (settle : List Constant → List Constant) : Command → Command → Prop
  | assign {target value span span'} :
      Expands settle (.assign target value span) (.assign target value span')
  | call {procedure arguments span span'} :
      Expands settle (.call procedure arguments span) (.call procedure arguments span')
  | skip {span span'} : Expands settle (.skip span) (.skip span')
  | ifThenElse {condition thenBranch thenBranch' elseBranch elseBranch' span span'}
      (hthen : Expands settle thenBranch thenBranch')
      (helse : Expands settle elseBranch elseBranch') :
      Expands settle (.ifThenElse condition thenBranch elseBranch span)
        (.ifThenElse condition thenBranch' elseBranch' span')
  | letIn {declaration body body' span span'} (hbody : Expands settle body body') :
      Expands settle (.letIn declaration body span) (.letIn declaration body' span')
  | seq {first first' second second' span span'}
      (hfirst : Expands settle first first') (hsecond : Expands settle second second') :
      Expands settle (.seq first second span) (.seq first' second' span')
  /-- The constants of the loop are inlined in what the loops inside were expanded to. -/
  | whileDo {condition body middle expanded constants span span'}
      (hextract : Extracts body.assigned 0 body middle constants)
      (hmiddle : Expands settle middle expanded) :
      Expands settle (.whileDo condition body span)
        (.whileDo condition (expanded.inlined (settle constants)) span')

/-- Expansion obeys its rules.  A loop without constants counts as one with an empty block. -/
theorem Hoists.expands {command command' : Command} (hhoists : Hoists command command')
    {settle : List Constant → List Constant} (hsettle : settle [] = [])
    (hcommand : command.KeepsReserved) : Expands settle command (command'.expandBy settle) := by
  induction hhoists with
  | assign => exact .assign
  | call => exact .call
  | skip => exact .skip
  | ifThenElse _ _ ihThen ihElse => exact .ifThenElse (ihThen hcommand.1) (ihElse hcommand.2)
  | letIn _ ih =>
      -- a block of the source is none of reserved constants, so it stays
      rw [Command.expandBy_letIn_of_none hcommand.1]
      exact .letIn (ih hcommand.2)
  | seq _ _ ihFirst ihSecond => exact .seq (ihFirst hcommand.1) (ihSecond hcommand.2)
  | kept hextract _ ih =>
      have hloop := ih (hextract.keepsReserved hcommand)
      rw [Command.expandBy, ← Command.inlined_nil (Command.expandBy settle _), ← hsettle]
      exact .whileDo hextract hloop
  | wrapped hextract hchain _ ih =>
      rw [Command.expandBy_letIn_whileDo_of_some
        (constants?_of_chain? (fun _ => hextract.reserved_name) hchain)]
      exact .whileDo hextract (ih (hextract.keepsReserved hcommand))

/-- Inlining the constants of each block as they are written gives the command back. -/
theorem Expands.bare_eq {command expanded : Command} (hexpands : Expands id command expanded)
    (hcommand : command.KeepsReserved) : expanded.bare = command.bare := by
  induction hexpands with
  | assign | call | skip => rfl
  | ifThenElse _ _ ihFirst ihSecond | seq _ _ ihFirst ihSecond =>
      simp only [Command.bare, ihFirst hcommand.1, ihSecond hcommand.2]
  | letIn _ ih => simp only [Command.bare, ih hcommand.2]
  | whileDo hextract _ ih =>
      have hexpanded := ih (hextract.keepsReserved hcommand)
      rw [Command.bare, id, hextract.bare_inlined hcommand hexpanded, Command.bare]

/-- Expanding a hoisted command gives the command back. -/
theorem Hoists.bare_expand {command command' : Command} (hhoists : Hoists command command')
    (hcommand : command.KeepsReserved) : command'.expand.bare = command.bare :=
  (hhoists.expands rfl hcommand).bare_eq hcommand

/-- **Inlining undoes hoisting.**  Nothing of a program is lost, repeated, moved or altered by
hoisting: expanding the result gives the program again, up to the spans of commands. -/
theorem bare_expand_optimise (program : Program) (hprogram : program.Unreserved) :
    program.optimise.expand.bare = program.bare := by
  have hexpand := (hoists_hoisted program.command).bare_expand
    (program.command.keepsReserved_of_unreserved hprogram)
  simp only [Program.bare, Program.expand, Program.optimise_command, hexpand]

open Sketch

/-- A nest of two loops in which the inner chain declares `$h1` and then reads the outer `$h1`:

```
while c do
  begin
    while d do begin getint(var d); x := a; y := k end;
    let const b ~ 1 in a := b
  end
``` -/
def mixedNest : Program :=
  ⟨loop (var "c")
    [loop (var "d") [callVar "getint" "d", assign "x" (var "a"), assign "y" (var "k")],
      .letIn (.const (name "b") (int "1") .dummy) (assign "a" (var "b")) .dummy], .dummy⟩

theorem bare_expand_optimise_mixedNest :
    mixedNest.Unreserved ∧
      mixedNest.optimise.command.blocks.map (fun block => block.constants.map Constant.name) =
        [["$h1", "$h2"], ["$h1", "$h2"]] ∧
      mixedNest.optimise.expand.bare = mixedNest.bare :=
  ⟨by decide, by decide +kernel, bare_expand_optimise mixedNest (by decide)⟩

end LoopHoist
