import LoopHoist.Proofs.Meaning.Temporaries

/-!
# Hoisting without capture preserves meaning

The names of constants start again at `$h1` in every loop.  When an inner loop takes over the read
of an outer constant, its chain of declarations can give that constant's name to something else
before the read comes: the read is *captured*, and means something else.

`Hoists.run_expandBy_inOrder` says what a hoisted command means in every case: what the command
means whose blocks are expanded with their constants in order.  Where no constant of a block reads
the name of an earlier one (`Constant.CaptureFree`), the order of the constants does not matter
(`Constant.inOrder_eq_self`); the expansion is then the one that gives the source program back, and
hoisting has preserved its meaning.
-/

namespace LoopHoist

universe u

variable {V : Type u}

/-! ## The meaning of a hoisted command -/

theorem Expands.assigned_eq {settle : List Constant → List Constant} {command expanded : Command}
    (hexpands : Expands settle command expanded) : expanded.assigned = command.assigned := by
  induction hexpands with
  | assign | call | skip => rfl
  | ifThenElse _ _ ihFirst ihSecond | seq _ _ ihFirst ihSecond =>
      simp only [Command.assigned, ihFirst, ihSecond]
  | letIn _ ih => exact ih
  | whileDo hextract _ ih =>
      simp only [Command.assigned, Command.assigned_inlined, ih, hextract.assigned_eq]

/-- Expanding a hoisted command leaves no block. -/
theorem Expands.tidy {command expanded : Command}
    (hexpands : Expands Constant.inOrder command expanded) (htidy : command.Tidy) :
    expanded.Tidy := by
  induction hexpands with
  | assign => exact htidy
  | call | letIn => exact htidy.elim
  | skip => trivial
  | ifThenElse _ _ ihThen ihElse => exact ⟨htidy.1, ihThen htidy.2.1, ihElse htidy.2.2⟩
  | seq _ _ ihFirst ihSecond => exact ⟨ihFirst htidy.1, ihSecond htidy.2⟩
  | whileDo hextract _ ih =>
      have hvalues := Constant.forall_value_inOrder Expression.Tidy fun constant hmem =>
        Command.tidy_of_mem_values _ htidy.2 (hextract.value_mem hmem).1
      exact ⟨htidy.1, (ih (hextract.tidy htidy.2)).inlined hvalues⟩

/-- A hoisted command does what it does with its blocks expanded, the constants of each in order. -/
theorem Hoists.run_expandBy_inOrder {command command' : Command} (hhoists : Hoists command command')
    (htidy : command.Tidy) (I : Interpretation V) (rounds : Nat) :
    command'.run I rounds = (command'.expandBy Constant.inOrder).run I rounds := by
  induction hhoists with
  | assign | skip => rfl
  | call | letIn => exact htidy.elim
  | ifThenElse _ _ ihThen ihElse =>
      funext store
      simp only [Command.expandBy, Command.run, ihThen htidy.2.1, ihElse htidy.2.2]
  | seq _ _ ihFirst ihSecond =>
      funext store
      simp only [Command.expandBy, Command.run, ihFirst htidy.1, ihSecond htidy.2]
  | kept hextract _ ih =>
      funext store
      simp only [Command.expandBy, Command.run, ih (hextract.tidy htidy.2)]
  | @wrapped condition body middle body' constants chain _ span' span'' hextract hchain hbody ih =>
      funext store
      have hmiddle := hextract.tidy htidy.2
      have hexpands := hbody.expands Constant.inOrder_nil hmiddle.keepsReserved
      -- the loops inside are expanded first, then the block around the loop that is left
      let loop : Command := .whileDo condition (body'.expandBy Constant.inOrder) span'
      have hloop : loop.Tidy := ⟨htidy.1, hexpands.tidy hmiddle⟩
      have hinner :
          (Command.letIn chain (.whileDo condition body' span') span'').run I rounds store =
            (Command.letIn chain loop span'').run I rounds store := by
        simp only [loop, Command.run, ih hmiddle]
      have houter : (Command.letIn chain loop span'').run I rounds store =
          (loop.inlined (Constant.inOrder constants)).run I rounds store := by
        refine run_letIn_chain hchain (fun _ => hextract.reserved_name) hextract.nodup_names
          (fun _ hmem => Command.tidy_of_mem_values _ htidy.2 (hextract.value_mem hmem).1)
          hloop (fun _ hmem => ?_) rounds store
        rw [Command.assigned, hexpands.assigned_eq, hextract.assigned_eq]
        exact (Expression.isInvariant_iff.mp (hextract.value_mem hmem).2).2
      rw [hinner, houter, Command.expandBy_letIn_whileDo_of_some
        (constants?_of_chain? (fun _ => hextract.reserved_name) hchain), Command.inlined]

/-! ## Spans mean nothing -/

theorem Command.run_bare (I : Interpretation V) (rounds : Nat) :
    ∀ command : Command, command.bare.run I rounds = command.run I rounds
  | .assign .. | .call .. | .skip _ => rfl
  | .ifThenElse _ first second _ | .seq first second _ => by
      funext store
      simp only [Command.bare, Command.run, first.run_bare, second.run_bare]
  | .letIn _ body _ | .whileDo _ body _ => by
      funext store
      simp only [Command.bare, Command.run, body.run_bare]

theorem Command.run_eq_of_bare {I : Interpretation V} {rounds : Nat} {command command' : Command}
    (hbare : command.bare = command'.bare) : command.run I rounds = command'.run I rounds := by
  rw [← command.run_bare, hbare, command'.run_bare]

/-- Commands that differ in spans only have the same runs. -/
theorem runs_congr_of_bare {command command' : Command} (hbare : command.bare = command'.bare)
    (I : Interpretation V) (store final : Store V) :
    Runs I command store final ↔ Runs I command' store final :=
  runs_congr fun _ start => congrFun (Command.run_eq_of_bare hbare) start

/-! ## Expansions that agree -/

/-- Two ways to settle constants that agree on the blocks of a command expand it to the same. -/
theorem Command.expandBy_congr {settle settle' : List Constant → List Constant} {command : Command}
    (hsettle : ∀ block ∈ command.blocks, settle block.constants = settle' block.constants) :
    command.expandBy settle = command.expandBy settle' := by
  fun_induction Command.expandBy settle command with
  | case1 | case2 | case3 => rfl
  | case4 condition thenBranch elseBranch span ihThen ihElse =>
      rw [Command.blocks, List.forall_mem_append] at hsettle
      rw [Command.expandBy, ihThen hsettle.1, ihElse hsettle.2]
  | case5 declaration condition body span span' constants hsome ih =>
      rw [Command.blocks_letIn_whileDo_of_some hsome, List.forall_mem_cons] at hsettle
      rw [Command.expandBy_letIn_whileDo_of_some hsome, ih hsettle.2, hsettle.1]
  | case6 declaration condition body span span' hnone ih =>
      rw [Command.blocks_letIn_of_none hnone] at hsettle
      rw [Command.expandBy_letIn_of_none hnone, ih hsettle, Command.expandBy]
  | case7 declaration body span hbody ih =>
      -- a block of constants around something else than a loop stays as it is
      rw [Command.blocks] at hsettle
      · rw [Command.expandBy, ih hsettle]
        exact hbody
      · exact hbody
  | case8 first second span ihFirst ihSecond =>
      rw [Command.blocks, List.forall_mem_append] at hsettle
      rw [Command.expandBy, ihFirst hsettle.1, ihSecond hsettle.2]
  | case9 condition body span ih => rw [Command.expandBy, ih hsettle]

/-! ## The meaning of a hoisted program -/

/-- A hoisted program ends in the stores in which its expansion in order ends. -/
theorem runs_optimise_iff_runs_inOrder (program : Program) (hplain : program.command.isPlain = true)
    (hprogram : program.Unreserved) (I : Interpretation V) (store final : Store V) :
    Runs I program.optimise.command store final ↔
      Runs I (program.optimise.command.expandBy Constant.inOrder) store final := by
  have htidy := program.command.tidy_of_isPlain hplain hprogram
  refine runs_congr fun rounds start => ?_
  rw [Program.optimise_command, (hoists_hoisted program.command).run_expandBy_inOrder htidy]

/-- **Hoisting without capture preserves meaning.**  If no constant that hoisting adds reads the
name of an earlier constant of the same block, a program and its hoisted form end in the same
stores. -/
theorem runs_optimise_iff_of_captureFree (program : Program)
    (hplain : program.command.isPlain = true) (hprogram : program.Unreserved)
    (hfree : ∀ block ∈ program.optimise.command.blocks, Constant.CaptureFree block.constants)
    (I : Interpretation V) (store final : Store V) :
    Runs I program.command store final ↔ Runs I program.optimise.command store final := by
  have hsettle : program.optimise.command.expandBy Constant.inOrder =
      program.optimise.command.expand :=
    Command.expandBy_congr fun block hblock => Constant.inOrder_eq_self (hfree block hblock)
  have hexpand : program.optimise.command.expand.bare = program.command.bare := by
    rw [Program.optimise_command]
    exact (hoists_hoisted program.command).bare_expand
      (program.command.keepsReserved_of_unreserved hprogram)
  calc Runs I program.command store final
      ↔ Runs I program.optimise.command.expand store final := runs_congr_of_bare hexpand.symm I _ _
    _ ↔ Runs I (program.optimise.command.expandBy Constant.inOrder) store final := by rw [hsettle]
    _ ↔ Runs I program.optimise.command store final :=
        (runs_optimise_iff_runs_inOrder program hplain hprogram I store final).symm

open Sketch

/-- A nest of two loops in which the inner one assigns a value of its own and a value that the outer
loop takes out too.  What comes before the inner loop decides under which name the outer loop does
so:

```
while i do
  begin
    before;
    while j do begin y := i; z := 7; j := j - 1 end;
    i := i - 1
  end
``` -/
def relayNest (before : List Command) : Program :=
  let countdown (counter : String) := assign counter (binary (var counter) "-" (int "1"))
  ⟨loop (var "i") (before ++
    [loop (var "j") [assign "y" (var "i"), assign "z" (int "7"), countdown "j"], countdown "i"]),
    .dummy⟩

/-- The store in which each loop of the nest has one round to go. -/
def relayStore : Store Int := fun name => if name ∈ ["i", "j"] then 1 else 0

/-- With `x := k` before the inner loop, the outer one takes `k` as `$h1` and `7` as `$h2`, and the
chain of the inner one is `$h1 ~ i; $h2 ~ $h2`. -/
def steadyNest : Program := relayNest [assign "x" (var "k")]

theorem runs_optimise_iff_of_captureFree_steadyNest :
    steadyNest.command.isPlain = true ∧ steadyNest.Unreserved ∧
      (∀ block ∈ steadyNest.optimise.command.blocks, Constant.CaptureFree block.constants) ∧
      steadyNest.optimise.command.blocks.map (fun block => block.constants.map (·.value.free)) =
        [[["k"], []], [["i"], ["$h2"]]] ∧
      ∃ final, Runs .arithmetic steadyNest.command relayStore final ∧
        Runs .arithmetic steadyNest.optimise.command relayStore final ∧ final "z" = 7 := by
  have hplain : steadyNest.command.isPlain = true := by decide
  have hnames : steadyNest.Unreserved := by decide
  have hfree : ∀ block ∈ steadyNest.optimise.command.blocks,
      Constant.CaptureFree block.constants := by decide +kernel
  obtain ⟨final, hruns, hvalue⟩ :
      ∃ final, Runs .arithmetic steadyNest.command relayStore final ∧ final "z" = 7 :=
    exists_runs_of_run 3 (by decide +kernel)
  exact ⟨hplain, hnames, hfree, by decide +kernel, final, hruns,
    (runs_optimise_iff_of_captureFree _ hplain hnames hfree _ _ _).mp hruns, hvalue⟩

end LoopHoist
