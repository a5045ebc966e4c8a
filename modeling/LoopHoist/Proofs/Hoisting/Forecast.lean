import LoopHoist.Proofs.Hoisting.Account
import Mathlib.Tactic.TFAE

/-!
# What a run will do

What hoisting does to a program can be told before it runs.  A loop that stands in no other takes
the invariant values of its body as written.  A loop inside another is looked at after the outer one
has put reads of its constants in the place of values, but it still takes as many values as it would
have taken before.

* `hoist_unchanged_tfae`: a program comes back as it is exactly when the run counts nothing, which
  is when no loop of the program has an invariant value in its body.
* `stats_hoist_eq`: the numbers of the run are the number of loops that take something and the sum
  of what all loops take, both counted in the program as written.

## Strategy

For the first result no name matters.  While nothing was taken the loops inside a loop are as they
were written, so the outermost loop with an invariant value sees its own body
(`Command.hoist_eq_kept`, `Command.stats_hoist_pos`).

The second one needs that the read of a constant is invariant for the inner loop, that is, that
nobody assigns to one of the names `$h0`, `$h1`, …  Then what is invariant for the outer loop is
invariant for the inner one before and after the extraction (`Extracts.map_length_taken`).
-/

namespace LoopHoist

/-! ## Programs in which nothing is invariant -/

theorem Command.taken_eq_nil_iff {body : Command} :
    body.taken = [] ↔ ∀ value ∈ body.values,
      ¬ (value.isPure = true ∧ ∀ name ∈ value.free, name ∉ body.assigned) := by
  simp only [Command.taken, List.filter_eq_nil_iff, Expression.isInvariant_iff]

/-- If no loop takes anything, nothing happens. -/
theorem Command.hoist_eq_kept : ∀ command : Command,
    (∀ body ∈ command.loops, body.taken = []) → command.hoist = .kept
  | .assign .., _ => Command.hoist_assign
  | .call .., _ => Command.hoist_call
  | .skip _, _ => Command.hoist_skip
  | .ifThenElse _ thenBranch elseBranch _, hloops => by
      rw [Command.loops, List.forall_mem_append] at hloops
      rw [Command.hoist_ifThenElse, thenBranch.hoist_eq_kept hloops.1,
        elseBranch.hoist_eq_kept hloops.2]
      rfl
  | .seq first second _, hloops => by
      rw [Command.loops, List.forall_mem_append] at hloops
      rw [Command.hoist_seq, first.hoist_eq_kept hloops.1, second.hoist_eq_kept hloops.2]
      rfl
  | .letIn _ body _, hloops => by
      rw [Command.hoist_letIn, body.hoist_eq_kept hloops]
      rfl
  | .whileDo _ body _, hloops => by
      rw [Command.loops, List.forall_mem_cons] at hloops
      rw [Command.hoist_whileDo_of_taken_eq_nil hloops.1, body.hoist_eq_kept hloops.2]
      rfl

/-- If some loop takes something, both numbers of the run tell. -/
theorem Command.stats_hoist_pos : ∀ (command : Command) {body : Command},
    body ∈ command.loops → body.taken ≠ [] →
      0 < command.hoist.stats.loopsRewritten ∧ 0 < command.hoist.stats.constantsHoisted
  | .assign .., _, hmem, _ | .call .., _, hmem, _ | .skip _, _, hmem, _ => by
      simp [Command.loops] at hmem
  | .ifThenElse _ first second _, body, hmem, htaken | .seq first second _, body, hmem, htaken => by
      simp only [Command.hoist_ifThenElse, Command.hoist_seq, Outcome.pair,
        HoistingStats.add_loopsRewritten, HoistingStats.add_constantsHoisted]
      rcases List.mem_append.mp hmem with hfirst | hsecond
      · have hpos := first.stats_hoist_pos hfirst htaken
        omega
      · have hpos := second.stats_hoist_pos hsecond htaken
        omega
  | .letIn _ inner _, body, hmem, htaken => by
      rw [Command.hoist_letIn]
      exact inner.stats_hoist_pos hmem htaken
  | .whileDo condition inner _, body, hmem, htaken => by
      cases hchain : Declaration.chain? .dummy
          ((numbered 0 inner.taken).map Constant.declaration) with
      | none =>
          -- this loop takes nothing, so the one that does is inside
          have hnil := inner.taken_eq_nil_of_chain?_eq_none hchain
          rw [Command.hoist_whileDo_of_taken_eq_nil hnil]
          rcases List.mem_cons.mp hmem with rfl | hinside
          · exact absurd hnil htaken
          · exact inner.stats_hoist_pos hinside htaken
      | some chain =>
          have hpos := Command.length_taken_pos hchain
          rw [Command.hoist_whileDo_of_chain? hchain]
          simp only [HoistingStats.add_loopsRewritten, HoistingStats.add_constantsHoisted]
          omega

namespace Program

variable {program : Program}

theorem stats_hoist_eq_zero_iff :
    (program.hoist.stats.loopsRewritten = 0 ↔
      ∀ body ∈ program.command.loops, body.taken = []) ∧
    (program.hoist.stats.constantsHoisted = 0 ↔
      ∀ body ∈ program.command.loops, body.taken = []) := by
  rw [Program.stats_hoist]
  by_cases hnothing : ∀ body ∈ program.command.loops, body.taken = []
  · rw [program.command.hoist_eq_kept hnothing]
    exact ⟨iff_of_true rfl hnothing, iff_of_true rfl hnothing⟩
  · obtain ⟨body, hmem, htaken⟩ : ∃ body ∈ program.command.loops, body.taken ≠ [] := by
      simpa using hnothing
    have hpos := program.command.stats_hoist_pos hmem htaken
    exact ⟨iff_of_false (by omega) hnothing, iff_of_false (by omega) hnothing⟩

theorem optimise_eq_self (hunchanged : program.hoist.isUnchanged = true) :
    program.optimise = program := by
  have hnone : program.hoist.replacement = none := by
    simpa [Outcome.isUnchanged] using hunchanged
  rw [Program.optimise, Outcome.result, hnone, Option.getD_none]

/-- A changed program differs from the one it was made of: it has more blocks. -/
theorem taken_eq_nil_of_optimise_eq_self (hsame : program.optimise = program) :
    ∀ body ∈ program.command.loops, body.taken = [] := by
  have hblocks := (reports_hoist program.command).count_forms .letIn
  rw [← Program.optimise_command, hsame, if_pos rfl] at hblocks
  refine stats_hoist_eq_zero_iff.1.mp ?_
  rw [Program.stats_hoist]
  omega

theorem isUnchanged_hoist_iff :
    program.hoist.isUnchanged = true ↔ ∀ body ∈ program.command.loops, body.taken = [] := by
  constructor
  · intro hunchanged
    exact taken_eq_nil_of_optimise_eq_self (optimise_eq_self hunchanged)
  · intro hloops
    rw [Program.hoist, program.command.hoist_eq_kept hloops]
    rfl

theorem isUnchanged_hoist_eq_false_iff :
    program.hoist.isUnchanged = false ↔ 0 < program.hoist.stats.constantsHoisted := by
  rw [← Bool.not_eq_true, isUnchanged_hoist_iff, ← stats_hoist_eq_zero_iff.2, Nat.pos_iff_ne_zero]

theorem optimise_eq_self_iff : program.optimise = program ↔ program.hoist.isUnchanged = true := by
  constructor
  · intro hsame
    exact isUnchanged_hoist_iff.mpr (taken_eq_nil_of_optimise_eq_self hsame)
  · exact optimise_eq_self

end Program

/-- **A program comes back unchanged exactly when there is nothing to hoist.**  That the run gives the
program itself back, that its result is equal to the program, that it counts no loop and no
constant, and that no loop has in its body an assignment of a pure value that reads nothing the body
assigns, all say the same.  The two numbers are zero together. -/
theorem hoist_unchanged_tfae (program : Program) :
    [program.hoist.isUnchanged = true,
      program.optimise = program,
      program.hoist.stats.loopsRewritten = 0 ∧ program.hoist.stats.constantsHoisted = 0,
      ∀ body ∈ program.command.loops, ∀ value ∈ body.values,
        ¬ (value.isPure = true ∧ ∀ name ∈ value.free, name ∉ body.assigned)].TFAE ∧
    (program.hoist.stats.loopsRewritten = 0 ↔ program.hoist.stats.constantsHoisted = 0) := by
  have hzero : program.hoist.stats.loopsRewritten = 0 ↔
      program.hoist.stats.constantsHoisted = 0 := by
    rw [Program.stats_hoist_eq_zero_iff.1, Program.stats_hoist_eq_zero_iff.2]
  refine ⟨?_, hzero⟩
  tfae_have 1 ↔ 2 := Program.optimise_eq_self_iff.symm
  tfae_have 1 ↔ 3 := by
    rw [← hzero, and_self, Program.stats_hoist_eq_zero_iff.1, Program.isUnchanged_hoist_iff]
  tfae_have 1 ↔ 4 := by
    rw [Program.isUnchanged_hoist_iff]
    exact forall₂_congr fun body _ => Command.taken_eq_nil_iff
  tfae_finish

/-! ## How many values each loop takes -/

namespace Extracts

variable {outer : List String} {issued : Nat} {command command' : Command}
  {constants : List Constant}

/-- A loop takes as many values after the extraction of an outer loop as before. -/
theorem length_taken (hextract : Extracts outer issued command command' constants)
    (hsub : command.assigned ⊆ outer) (houter : ∀ n, hoistedName n ∉ outer) :
    command'.taken.length = command.taken.length := by
  have hinner : ∀ n, hoistedName n ∉ command.assigned := fun n hmem => houter n (hsub hmem)
  rw [Command.taken, hextract.values_eq, hextract.assigned_eq, filter_afterExtraction hsub hinner,
    length_afterExtraction, Command.taken]

/-- So do all loops in a part of the body of the outer loop. -/
theorem map_length_taken (hextract : Extracts outer issued command command' constants)
    (hsub : command.assigned ⊆ outer) (houter : ∀ n, hoistedName n ∉ outer) :
    command'.loops.map (fun body => body.taken.length) =
      command.loops.map fun body => body.taken.length := by
  induction hextract with
  | taken | left | call | skip => rfl
  | ifThenElse _ _ ihFirst ihSecond | seq _ _ ihFirst ihSecond =>
      rw [Command.assigned, List.append_subset] at hsub
      simp only [Command.loops, List.map_append, ihFirst hsub.1, ihSecond hsub.2]
  | letIn _ ih => exact ih hsub
  | whileDo hbody ih =>
      simp only [Command.loops, List.map_cons, hbody.length_taken hsub houter, ih hsub]

end Extracts

/-- The numbers of a run, counted in the command as written. -/
theorem Reports.stats_eq {command command' : Command} {stats : HoistingStats} {events : List Event}
    (hreports : Reports command command' stats events)
    (hassigned : ∀ n, hoistedName n ∉ command.assigned) :
    stats.loopsRewritten = (command.loops.map fun body => body.taken.length).countP (0 < ·) ∧
      stats.constantsHoisted = (command.loops.map fun body => body.taken.length).sum := by
  induction hreports with
  | assign | call | skip => exact ⟨rfl, rfl⟩
  | ifThenElse _ _ ihFirst ihSecond | seq _ _ ihFirst ihSecond =>
      simp only [Command.assigned, List.mem_append, not_or] at hassigned
      obtain ⟨hloops, hvalues⟩ := ihFirst fun n => (hassigned n).1
      obtain ⟨hloops', hvalues'⟩ := ihSecond fun n => (hassigned n).2
      simp only [Command.loops, List.map_append, List.countP_append, List.sum_append,
        HoistingStats.add_loopsRewritten, HoistingStats.add_constantsHoisted, hloops, hloops',
        hvalues, hvalues', and_self]
  | letIn _ ih => exact ih hassigned
  | kept htaken _ ih =>
      obtain ⟨hloops, hvalues⟩ := ih hassigned
      simp [Command.loops, htaken, hloops, hvalues]
  | @wrapped condition body middle _ _ _ _ _ _ _ hextract hchain _ ih =>
      have hpos := Command.length_taken_pos hchain
      rw [hextract.assigned_eq] at ih
      obtain ⟨hloops, hvalues⟩ := ih hassigned
      -- the inner loops take as much of the extracted body as of the one that was written
      rw [hextract.map_length_taken (List.Subset.refl _) hassigned] at hloops hvalues
      simp [Command.loops, hloops, hvalues, hpos, Nat.add_comm]

/-- **What is hoisted can be read off the program.**  If nobody assigns to a name `$h` followed by a
number, then the number of rewritten loops is the number of loops with an invariant value in their
body, and the number of hoisted constants is the sum of the numbers of invariant values in the
bodies of all loops, values in inner loops included. -/
theorem stats_hoist_eq (program : Program)
    (hassigned : ∀ n, hoistedName n ∉ program.command.assigned) :
    program.hoist.stats.loopsRewritten =
        program.command.loops.countP (fun body => decide (0 < body.taken.length)) ∧
      program.hoist.stats.constantsHoisted =
        (program.command.loops.map fun body => body.taken.length).sum := by
  obtain ⟨hloops, hvalues⟩ := (reports_hoist program.command).stats_eq hassigned
  rw [List.countP_map] at hloops
  exact ⟨hloops, hvalues⟩

open Sketch

/-- A nest in which each loop takes another choice of values, and which reads a reserved name:

```
while a do
  begin
    x := 1;
    while b do
      begin y := x; z := $h1; while c do begin u := y; v := 2 end end
  end
``` -/
def layeredNest : Program :=
  ⟨loop (var "a")
    [assign "x" (int "1"),
      loop (var "b")
        [assign "y" (var "x"), assign "z" (var "$h1"),
          loop (var "c") [assign "u" (var "y"), assign "v" (int "2")]]], .dummy⟩

theorem stats_hoist_eq_layeredNest :
    (∀ n, hoistedName n ∉ layeredNest.command.assigned) ∧ ¬ layeredNest.Unreserved ∧
      layeredNest.command.loops.map (fun body => body.taken.length) = [3, 3, 2] ∧
      layeredNest.hoist.stats.loopsRewritten = 3 ∧
      layeredNest.hoist.stats.constantsHoisted = 8 := by
  have hassigned : ∀ n, hoistedName n ∉ layeredNest.command.assigned :=
    hoistedName_notMem_of_not_reserved (by decide)
  obtain ⟨hloops, hvalues⟩ := stats_hoist_eq layeredNest hassigned
  exact ⟨hassigned, by decide, by decide, hloops.trans (by decide), hvalues.trans (by decide)⟩

end LoopHoist
