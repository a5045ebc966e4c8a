import LoopHoist.Proofs.Hoisting.Passed
import LoopHoist.Proofs.Meaning.Store

/-!
# What the loops of a program take

`Command.takings` lists the values that the loops of a command take, as the command is written, each
with the names that are bound around its loop.  Hoisting does not see them all at once: an outer
loop puts reads of its constants in the place of values before the inner loops are looked at.  What
an inner loop finds is the same apart from such reads (`Extracts.mem_takings`), and what it no
longer finds the outer loop has taken (`Extracts.mem_takings_or`).

So whatever holds of the reads of constants holds of all constants that hoisting adds exactly when
it holds of all values that the loops take (`Hoists.forall_constants_iff`).

## Calls and blocks in indices

Only pure values are taken, and a pure value has no call and no block in it, except in the indices
of the variables that it reads: a read counts as pure whatever its indices are.
`constants_optimise_isPlain_iff` says when that lets a call or a block out of a loop.
-/

namespace LoopHoist

/-- A value that a loop takes, and the names that are bound around the loop. -/
structure Taking where
  bound : List String
  value : Expression

/-- The values that the loops of a command take, with the names that the command binds around each
loop. -/
def Command.takings : Command → List Taking
  | .assign .. | .call .. | .skip _ => []
  | .ifThenElse _ thenBranch elseBranch _ => thenBranch.takings ++ elseBranch.takings
  | .letIn declaration body _ =>
      body.takings.map fun taking => ⟨declaration.names ++ taking.bound, taking.value⟩
  | .seq first second _ => first.takings ++ second.takings
  | .whileDo _ body _ => body.taken.map (Taking.mk []) ++ body.takings

theorem Command.mem_takings_whileDo {condition : Expression} {body : Command} {span : Span}
    {taking : Taking} : taking ∈ (Command.whileDo condition body span).takings ↔
      (taking.bound = [] ∧ taking.value ∈ body.values ∧
        taking.value.isInvariant body.assigned = true) ∨ taking ∈ body.takings := by
  obtain ⟨bound, value⟩ := taking
  simp only [Command.takings, Command.taken, List.mem_append, List.mem_map, List.mem_filter,
    Taking.mk.injEq, exists_eq_right_right]
  rw [and_comm, eq_comm]

/-! ## What an extraction leaves for the inner loops -/

namespace Extracts

variable {outer : List String} {taken : Nat} {command command' : Command}
  {constants : List Constant} {taking : Taking}

/-- Apart from reads of constants, the loops in what an extraction leaves take nothing new. -/
theorem mem_takings (hextract : Extracts outer taken command command' constants)
    (hreading : taking.value.isReading = false) (hmem : taking ∈ command'.takings) :
    taking ∈ command.takings := by
  induction hextract generalizing taking with
  | taken | left | call | skip => simp [Command.takings] at hmem
  | ifThenElse _ _ ihFirst ihSecond | seq _ _ ihFirst ihSecond =>
      rw [Command.takings, List.mem_append] at hmem ⊢
      exact hmem.imp (ihFirst hreading) (ihSecond hreading)
  | letIn _ ih =>
      rw [Command.takings, List.mem_map] at hmem ⊢
      obtain ⟨inner, hinner, rfl⟩ := hmem
      exact ⟨inner, ih hreading hinner, rfl⟩
  | whileDo hbody ih =>
      rw [Command.mem_takings_whileDo] at hmem ⊢
      refine hmem.imp ?_ (ih hreading)
      rintro ⟨hbound, hvalue, hinvariant⟩
      rw [hbody.values_eq] at hvalue
      rw [hbody.assigned_eq] at hinvariant
      -- what the inner loop finds in its body was there before or is a read put there
      rcases mem_afterExtraction hvalue with hread | hwritten
      · rw [hreading] at hread
        contradiction
      · exact ⟨hbound, hwritten, hinvariant⟩

/-- What the loops no longer take after an extraction is what was extracted. -/
theorem mem_takings_or (hextract : Extracts outer taken command command' constants)
    (hmem : taking ∈ command.takings) :
    taking ∈ command'.takings ∨
      taking.value ∈ command.values ∧ taking.value.isInvariant outer = true := by
  induction hextract generalizing taking with
  | taken | left | call | skip => simp [Command.takings] at hmem
  | ifThenElse _ _ ihFirst ihSecond | seq _ _ ihFirst ihSecond =>
      rw [Command.takings, List.mem_append] at hmem
      rw [Command.takings, Command.values, List.mem_append, List.mem_append]
      rcases hmem with hmem | hmem
      · exact (ihFirst hmem).imp .inl fun hvalue => ⟨.inl hvalue.1, hvalue.2⟩
      · exact (ihSecond hmem).imp .inr fun hvalue => ⟨.inr hvalue.1, hvalue.2⟩
  | letIn _ ih =>
      rw [Command.takings, List.mem_map] at hmem
      obtain ⟨inner, hinner, rfl⟩ := hmem
      rw [Command.takings, List.mem_map]
      exact (ih hinner).imp (fun hleft => ⟨inner, hleft, rfl⟩) id
  | whileDo hbody ih =>
      rw [Command.mem_takings_whileDo] at hmem ⊢
      rcases hmem with ⟨hbound, hvalue, hinvariant⟩ | hmem
      · rcases mem_afterExtraction_of_mem hvalue with htaken | hleft
        · exact .inr ⟨hvalue, htaken⟩
        · rw [← hbody.values_eq] at hleft
          rw [← hbody.assigned_eq] at hinvariant
          exact .inl (.inl ⟨hbound, hleft, hinvariant⟩)
      · exact (ih hmem).imp .inr id

/-- What the loops of a loop take, the outer one included, is found in the constants of the outer
loop and in what its extraction leaves to the inner ones. -/
theorem forall_takings_whileDo_iff {body middle : Command} {condition : Expression} {span : Span}
    (hextract : Extracts body.assigned 0 body middle constants) (holds : Taking → Prop)
    (hread : ∀ taking : Taking, taking.value.isReading = true → holds taking)
    (hbound : ∀ bound value, holds ⟨[], value⟩ → holds ⟨bound, value⟩) :
    (∀ taking ∈ (Command.whileDo condition body span).takings, holds taking) ↔
      (∀ constant ∈ constants, holds ⟨[], constant.value⟩) ∧
        ∀ taking ∈ middle.takings, holds taking := by
  rw [hextract.forall_constants_iff fun value => holds ⟨[], value⟩]
  constructor
  · intro hall
    refine ⟨fun value hvalue => ?_, fun taking hmem => ?_⟩
    · exact hall _ (Command.mem_takings_whileDo.mpr (.inl ⟨rfl, List.mem_filter.mp hvalue⟩))
    · -- the inner loops take reads of the new constants as well, which nobody wrote
      by_cases hreading : taking.value.isReading = true
      · exact hread taking hreading
      · have hwritten := hextract.mem_takings (by simpa using hreading) hmem
        exact hall taking (Command.mem_takings_whileDo.mpr (.inr hwritten))
  · rintro ⟨htaken, hleft⟩ ⟨bound, value⟩ hmem
    rcases Command.mem_takings_whileDo.mp hmem with ⟨-, hvalue⟩ | hmem
    · exact hbound bound value (htaken value (List.mem_filter.mpr hvalue))
    · rcases hextract.mem_takings_or hmem with hmem | hvalue
      · exact hleft _ hmem
      · exact hbound bound value (htaken value (List.mem_filter.mpr hvalue))

end Extracts

/-! ## What hoisting adds -/

/-- The constants that hoisting adds are the values that the loops take, apart from reads of
constants. -/
theorem Hoists.forall_constants_iff {command command' : Command} (hhoists : Hoists command command')
    (hcommand : command.KeepsReserved) (holds : Expression → Prop)
    (hread : ∀ value : Expression, value.isReading = true → holds value) :
    (∀ block ∈ command'.blocks, ∀ constant ∈ block.constants, holds constant.value) ↔
      ∀ taking ∈ command.takings, holds taking.value := by
  induction hhoists with
  | assign | call | skip => simp [Command.blocks, Command.takings]
  | ifThenElse _ _ ihFirst ihSecond | seq _ _ ihFirst ihSecond =>
      simp only [Command.blocks, Command.takings, List.forall_mem_append]
      rw [ihFirst hcommand.1, ihSecond hcommand.2]
  | letIn _ ih =>
      rw [Command.blocks_letIn_of_none hcommand.1, ih hcommand.2, Command.takings,
        List.forall_mem_map]
  | kept hextract _ ih =>
      -- no block here, and no constant either: all that is taken is taken inside
      rw [Command.blocks, ih (hextract.keepsReserved hcommand),
        hextract.forall_takings_whileDo_iff (fun taking => holds taking.value)
          (fun taking => hread taking.value) fun _ _ => id]
      simp
  | wrapped hextract hchain _ ih =>
      rw [Command.blocks_letIn_whileDo_of_some
        (constants?_of_chain? (fun _ => hextract.reserved_name) hchain), List.forall_mem_cons,
        ih (hextract.keepsReserved hcommand),
        hextract.forall_takings_whileDo_iff (fun taking => holds taking.value)
          (fun taking => hread taking.value) fun _ _ => id]

/-! ## Calls and blocks in indices -/

/-- The indices of a value name. -/
def Vname.indices : Vname → List Expression
  | .simple .. => []
  | .dot base _ _ => base.indices
  | .subscript base index _ => base.indices ++ [index]

/-- The indices of the value names that a pure expression reads. -/
def Expression.indices : Expression → List Expression
  | .read vname _ => vname.indices
  | .unary _ operand _ => operand.indices
  | .binary _ left right _ => left.indices ++ right.indices
  | .empty _ | .integer .. | .character .. | .ifThenElse .. | .letIn .. | .call .. | .array ..
  | .record .. => []

theorem Vname.isPlain_iff : ∀ vname : Vname,
    vname.isPlain = true ↔ ∀ index ∈ vname.indices, index.isPlain = true
  | .dot base _ _ => base.isPlain_iff
  | .simple .. => by simp [Vname.isPlain, Vname.indices]
  | .subscript base index _ => by
      rw [Vname.isPlain, Vname.indices, Bool.and_eq_true, List.forall_mem_append,
        List.forall_mem_singleton, base.isPlain_iff]

/-- A pure expression has no call and no block in it if its indices have none. -/
theorem Expression.isPlain_iff_of_isPure : ∀ expression : Expression, expression.isPure = true →
    (expression.isPlain = true ↔ ∀ index ∈ expression.indices, index.isPlain = true)
  | .empty _, _ | .integer .., _ | .character .., _ => by
      simp [Expression.isPlain, Expression.indices]
  | .read vname _, _ => vname.isPlain_iff
  | .unary _ operand _, hpure => operand.isPlain_iff_of_isPure hpure
  | .binary _ left right _, hpure => by
      rw [Expression.isPure, Bool.and_eq_true] at hpure
      rw [Expression.isPlain, Expression.indices, Bool.and_eq_true, List.forall_mem_append,
        left.isPlain_iff_of_isPure hpure.1, right.isPlain_iff_of_isPure hpure.2]
  | .ifThenElse .., hpure | .letIn .., hpure | .call .., hpure | .array .., hpure
  | .record .., hpure => by simp [Expression.isPure] at hpure

/-- Loops take pure values of assignments. -/
theorem Command.of_mem_takings : ∀ (command : Command) {taking : Taking},
    taking ∈ command.takings → taking.value ∈ command.values ∧ taking.value.isPure = true
  | .assign .., _, hmem | .call .., _, hmem | .skip _, _, hmem => by
      simp [Command.takings] at hmem
  | .ifThenElse _ first second _, _, hmem | .seq first second _, _, hmem => by
      rcases List.mem_append.mp hmem with hfirst | hsecond
      · exact (first.of_mem_takings hfirst).imp_left (List.mem_append_left _)
      · exact (second.of_mem_takings hsecond).imp_left (List.mem_append_right _)
  | .letIn _ body _, _, hmem => by
      obtain ⟨inner, hinner, rfl⟩ := List.mem_map.mp hmem
      have hvalue := body.of_mem_takings hinner
      exact hvalue
  | .whileDo _ body _, _, hmem => by
      rcases Command.mem_takings_whileDo.mp hmem with ⟨-, hvalue, hinvariant⟩ | hmem
      · exact ⟨hvalue, (Expression.isInvariant_iff.mp hinvariant).1⟩
      · exact body.of_mem_takings hmem

/-- **Which calls and blocks leave a loop.**  A constant that hoisting adds has no call and no block
in it outside the indices of the variables it reads.  None has one in an index either exactly when
no loop of the program as written takes a value with a call or a block in an index. -/
theorem constants_optimise_isPlain_iff (program : Program) (hprogram : program.Unreserved) :
    (∀ block ∈ program.optimise.command.blocks, ∀ constant ∈ block.constants,
      constant.value.isPure = true) ∧
    ((∀ block ∈ program.optimise.command.blocks, ∀ constant ∈ block.constants,
        constant.value.isPlain = true) ↔
      ∀ taking ∈ program.command.takings, ∀ index ∈ taking.value.indices,
        index.isPlain = true) := by
  have hkeeps := program.command.keepsReserved_of_unreserved hprogram
  have hhoists := hoists_hoisted program.command
  rw [Program.optimise_command]
  constructor
  · refine (hhoists.forall_constants_iff hkeeps (fun value => value.isPure = true) ?_).mpr
      fun _ hmem => (program.command.of_mem_takings hmem).2
    intro value hreading
    obtain ⟨name, span, span', rfl, -⟩ := Expression.exists_of_isReading hreading
    rfl
  · rw [hhoists.forall_constants_iff hkeeps fun value => value.isPlain = true]
    · refine forall₂_congr fun taking hmem => ?_
      exact taking.value.isPlain_iff_of_isPure (program.command.of_mem_takings hmem).2
    · intro value hreading
      obtain ⟨name, span, span', rfl, -⟩ := Expression.exists_of_isReading hreading
      rfl

open Sketch

/-- A nest that looks things up in a table, twice under plain indices:

```
while c do
  begin x := t[i + 1]; y := f(i); while d do z := t[t[k]] end
``` -/
def tableNest : Program :=
  ⟨loop (var "c")
    [assign "x" (item "t" (binary (var "i") "+" (int "1"))), assign "y" (apply "f" (var "i")),
      loop (var "d") [assign "z" (item "t" (item "t" (var "k")))]], .dummy⟩

theorem constants_optimise_isPlain_iff_tableNest :
    tableNest.Unreserved ∧
      tableNest.optimise.command.blocks.map (fun block => block.constants.map (·.value.free)) =
        [[["t", "i"], ["t", "t", "k"]], [["$h2"]]] ∧
      (∀ taking ∈ tableNest.command.takings, ∀ index ∈ taking.value.indices,
        index.isPlain = true) ∧
      ∀ block ∈ tableNest.optimise.command.blocks, ∀ constant ∈ block.constants,
        constant.value.isPlain = true :=
  ⟨by decide, by decide +kernel, by decide,
    (constants_optimise_isPlain_iff tableNest (by decide)).2.mpr (by decide)⟩

/-- `while c do x := t[f(1)]`. -/
def lookupLoop : Program :=
  ⟨loop (var "c") [assign "x" (item "t" (apply "f" (int "1")))], .dummy⟩

/-- The function is called once before the loop, and no longer in every round. -/
theorem lookupLoop_optimise_moves_call :
    lookupLoop.Unreserved ∧
      ∃ block ∈ lookupLoop.optimise.command.blocks, ∃ constant ∈ block.constants,
        constant.value = item "t" (apply "f" (int "1")) ∧ constant.value.isPlain = false := by
  refine ⟨by decide, ?_⟩
  decide +kernel

end LoopHoist
