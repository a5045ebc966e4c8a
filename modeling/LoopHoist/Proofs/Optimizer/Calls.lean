import LoopHoist.Optimizer.Pipeline
import LoopHoist.Proofs.Sketch
import Mathlib.Algebra.BigOperators.Group.List.Basic

/-!
# The calls of an optimiser

An optimiser is called again and again, and its passes carry their states from one call to the next.
`optimize_call` says what a call does, whatever passes were registered and whatever calls came
before.

* At `O0` a call gives the program back and leaves everything as it was.
* At any other level the passes that run at it are applied one after the other, each in the state
  the calls before have left it in (`Pass.applyAll`); a pass that does not run keeps its state; and
  every pass that has something to report after the call, whether it was run or not, reports it.
* The state of a hoisting pass is the account of all runs of it added up, and it reports from the
  first call on that brings its number of values above zero.

## Strategy

Two equations describe what a call does to the list of passes: what comes out of it
(`getD_replacement_runPasses`) and what becomes of the pass at a position
(`getElem?_passes_runPasses`).  Both are inductions over the list.  What several calls do follows by
induction over the calls from what one of them does to one pass, for which the passes around it
matter only as far as they prepare the program that it receives (`Pass.reaching`).
-/

namespace LoopHoist

instance : AddCommMonoid HoistingStats where
  add_assoc _ _ _ := congrArg₂ HoistingStats.mk (Nat.add_assoc ..) (Nat.add_assoc ..)
  zero_add _ := congrArg₂ HoistingStats.mk (Nat.zero_add _) (Nat.zero_add _)
  add_zero _ := rfl
  add_comm _ _ := congrArg₂ HoistingStats.mk (Nat.add_comm ..) (Nat.add_comm ..)
  nsmul := nsmulRec

namespace Pass

/-- Whether a pass runs at a level. -/
def runsAt (level : Level) (pass : Pass) : Bool := pass.minLevel ≤ level

/-- What a pass makes of a program in the state it is in. -/
def apply (pass : Pass) (program : Program) : Program :=
  (pass.run program).replacement.getD program

/-- A pass after it was run on a program. -/
def stepped (pass : Pass) (program : Program) : Pass := (pass.run program).pass

/-- What passes make of a program, one after the other. -/
def applyAll (passes : List Pass) (program : Program) : Program :=
  passes.foldl (fun current pass => pass.apply current) program

/-- The program that reaches a position in a list of passes. -/
def reaching (level : Level) (passes : List Pass) (position : Nat) (program : Program) : Program :=
  applyAll ((passes.take position).filter (runsAt level)) program

/-- The diagnostic in which a pass reports what it has done so far. -/
def report (pass : Pass) : Option Diagnostic :=
  pass.summary.map fun summary => ⟨.info, .dummy, pass.name ++ ": " ++ summary⟩

/-- The hoisting pass with this account. -/
def hoistingAfter (stats : HoistingStats) : Pass where
  name := "loop-hoisting"
  minLevel := .O1
  State := HoistingStats
  state := stats
  step := HoistingStats.step
  summarize := HoistingStats.summary

end Pass

/-! ## One round of passes -/

section RunPasses

variable (level : Level)

theorem runPasses_cons_of_runsAt {pass : Pass} (hruns : pass.runsAt level = true)
    (rest : List Pass) (program : Program) :
    runPasses level (pass :: rest) program =
      let later := runPasses level rest (pass.apply program)
      ⟨pass.stepped program :: later.passes, later.replacement <|> (pass.run program).replacement,
        (pass.run program).events ++ later.events, later.ran + 1⟩ := by
  have hlevel : ¬ level < pass.minLevel := Nat.not_lt.mpr (of_decide_eq_true hruns)
  rw [runPasses, if_neg hlevel]
  rfl

theorem runPasses_cons_of_not_runsAt {pass : Pass} (hruns : pass.runsAt level = false)
    (rest : List Pass) (program : Program) :
    runPasses level (pass :: rest) program =
      let later := runPasses level rest program
      ⟨pass :: later.passes, later.replacement,
        .skipping pass.name pass.minLevel :: later.events, later.ran⟩ := by
  have hlevel : level < pass.minLevel := Nat.not_le.mp (of_decide_eq_false hruns)
  rw [runPasses, if_pos hlevel]

/-- What comes out is what the passes that run at the level make of the program. -/
theorem getD_replacement_runPasses (passes : List Pass) : ∀ program : Program,
    (runPasses level passes program).replacement.getD program =
      Pass.applyAll (passes.filter (·.runsAt level)) program := by
  induction passes with
  | nil => intro program; rfl
  | cons pass rest ih =>
      intro program
      cases hruns : pass.runsAt level with
      | true =>
          rw [runPasses_cons_of_runsAt level hruns, List.filter_cons_of_pos hruns, Pass.applyAll,
            List.foldl_cons, ← Pass.applyAll, ← ih]
          dsimp only
          -- a later pass has the last word; if none replaces anything, this one has
          cases (runPasses level rest (pass.apply program)).replacement <;> rfl
      | false =>
          rw [runPasses_cons_of_not_runsAt level hruns, List.filter_cons_of_neg (by simp [hruns])]
          exact ih program

/-- A pass is run on the program that reaches it, or is left as it is. -/
theorem getElem?_passes_runPasses (passes : List Pass) : ∀ (program : Program) (position : Nat),
    (runPasses level passes program).passes[position]? = passes[position]?.map fun pass =>
      if pass.runsAt level then pass.stepped (Pass.reaching level passes position program)
      else pass := by
  induction passes with
  | nil => intro program position; rfl
  | cons pass rest ih =>
      intro program position
      cases hruns : pass.runsAt level with
      | true =>
          rw [runPasses_cons_of_runsAt level hruns]
          -- the passes after this one see what it made of the program
          cases position with
          | zero => simp [hruns, Pass.reaching, Pass.applyAll]
          | succ position =>
              simp only [List.getElem?_cons_succ, ih, Pass.reaching, List.take_succ_cons,
                List.filter_cons_of_pos hruns, Pass.applyAll, List.foldl_cons]
      | false =>
          have hskip : ¬ pass.runsAt level = true := by simp [hruns]
          rw [runPasses_cons_of_not_runsAt level hruns]
          cases position with
          | zero => simp [hruns]
          | succ position =>
              simp only [List.getElem?_cons_succ, ih, Pass.reaching, List.take_succ_cons,
                List.filter_cons_of_neg hskip]

theorem length_passes_runPasses (passes : List Pass) : ∀ program : Program,
    (runPasses level passes program).passes.length = passes.length := by
  induction passes with
  | nil => intro program; rfl
  | cons pass rest ih =>
      intro program
      unfold runPasses
      split <;> simp [ih]

end RunPasses

/-! ## One call -/

namespace Optimizer

/-- The optimiser that settings ask for, with further passes registered. -/
def registered (settings : Settings) (added : List Pass) : Optimizer :=
  added.foldl addPass (ofSettings settings)

/-- An optimiser after it was called on programs. -/
def afterCalls (optimizer : Optimizer) (programs : List Program) : Optimizer :=
  programs.foldl (fun current program => (current.optimize program).optimizer) optimizer

/-- The program that a call hands to the pass at a position, if it runs that pass. -/
def input? (optimizer : Optimizer) (position : Nat) (program : Program) : Option Program :=
  if optimizer.level = .O0 then none
  else (optimizer.passes[position]?.filter (·.runsAt optimizer.level)).map fun _ =>
    Pass.reaching optimizer.level optimizer.passes position program

/-- The programs that calls hand to the pass at a position, in order. -/
def inputs (optimizer : Optimizer) (position : Nat) : List Program → List Program
  | [] => []
  | program :: rest =>
      (optimizer.input? position program).toList ++
        (optimizer.optimize program).optimizer.inputs position rest

variable {optimizer : Optimizer}

theorem summaries_map_summaryDiagnostic (optimizer : Optimizer) :
    optimizer.summaries.map summaryDiagnostic = optimizer.passes.filterMap Pass.report := by
  rw [summaries, List.map_filterMap]
  refine List.filterMap_congr fun pass _ => ?_
  rw [Option.map_map]
  rfl

theorem optimize_of_level_eq_O0 (hlevel : optimizer.level = .O0) (program : Program) :
    optimizer.optimize program = ⟨optimizer, none, []⟩ := by
  rw [optimize]
  split
  · rfl
  · contradiction

theorem optimize_of_level_ne_O0 (hlevel : optimizer.level ≠ .O0) (program : Program) :
    optimizer.optimize program =
      let run := runPasses optimizer.level optimizer.passes program
      ⟨⟨optimizer.level, run.passes, optimizer.diagnostics ++ run.passes.filterMap Pass.report⟩,
        run.replacement, run.events ++ [.ran run.ran optimizer.level]⟩ := by
  rw [optimize]
  split
  · contradiction
  · simp only [summaries_map_summaryDiagnostic]

@[simp] theorem level_optimize (optimizer : Optimizer) (program : Program) :
    (optimizer.optimize program).optimizer.level = optimizer.level := by
  by_cases hlevel : optimizer.level = .O0
  · rw [optimize_of_level_eq_O0 hlevel]
  · rw [optimize_of_level_ne_O0 hlevel]

theorem getElem?_passes_optimize (hlevel : optimizer.level ≠ .O0) (program : Program)
    (position : Nat) :
    (optimizer.optimize program).optimizer.passes[position]? =
      optimizer.passes[position]?.map fun pass =>
        if pass.runsAt optimizer.level then
          pass.stepped (Pass.reaching optimizer.level optimizer.passes position program)
        else pass := by
  rw [optimize_of_level_ne_O0 hlevel]
  exact getElem?_passes_runPasses optimizer.level optimizer.passes program position

theorem getD_replacement_optimize (hlevel : optimizer.level ≠ .O0) (program : Program) :
    (optimizer.optimize program).replacement.getD program =
      Pass.applyAll (optimizer.passes.filter (·.runsAt optimizer.level)) program := by
  rw [optimize_of_level_ne_O0 hlevel]
  exact getD_replacement_runPasses optimizer.level optimizer.passes program

/-- A call adds what the passes have to report after it. -/
theorem diagnostics_optimize (hlevel : optimizer.level ≠ .O0) (program : Program) :
    (optimizer.optimize program).optimizer.diagnostics =
      optimizer.diagnostics ++
        (optimizer.optimize program).optimizer.passes.filterMap Pass.report := by
  simp only [optimize_of_level_ne_O0 hlevel]

@[simp] theorem level_registered (settings : Settings) (added : List Pass) :
    (registered settings added).level = settings.level := by
  have hadded : ∀ optimizer : Optimizer,
      (added.foldl addPass optimizer).level = optimizer.level := by
    induction added with
    | nil => intro optimizer; rfl
    | cons pass rest ih => exact fun optimizer => ih _
  exact hadded _

/-! ## Call after call -/

@[simp] theorem level_afterCalls (programs : List Program) : ∀ optimizer : Optimizer,
    (optimizer.afterCalls programs).level = optimizer.level := by
  induction programs with
  | nil => intro optimizer; rfl
  | cons program rest ih =>
      intro optimizer
      rw [afterCalls, List.foldl_cons, ← afterCalls, ih, level_optimize]

theorem afterCalls_of_level_eq_O0 (hlevel : optimizer.level = .O0) (programs : List Program) :
    optimizer.afterCalls programs = optimizer := by
  induction programs with
  | nil => rfl
  | cons program rest ih =>
      rw [afterCalls, List.foldl_cons, optimize_of_level_eq_O0 hlevel]
      exact ih

theorem afterCalls_append (first second : List Program) :
    optimizer.afterCalls (first ++ second) = (optimizer.afterCalls first).afterCalls second :=
  List.foldl_append

/-- A call changes the state of a pass at most. -/
theorem exists_state_optimize {pass : Pass} {position : Nat}
    (hpass : optimizer.passes[position]? = some pass) (program : Program) :
    ∃ state, (optimizer.optimize program).optimizer.passes[position]? =
      some { pass with state := state } := by
  by_cases hlevel : optimizer.level = .O0
  · rw [optimize_of_level_eq_O0 hlevel]
    exact ⟨pass.state, hpass⟩
  · rw [getElem?_passes_optimize hlevel, hpass, Option.map_some]
    split
    · exact ⟨_, rfl⟩
    · exact ⟨pass.state, rfl⟩

theorem exists_state_afterCalls {position : Nat} (programs : List Program) :
    ∀ {optimizer : Optimizer} {pass : Pass}, optimizer.passes[position]? = some pass →
      ∃ state, (optimizer.afterCalls programs).passes[position]? =
        some { pass with state := state } := by
  induction programs with
  | nil => exact fun hpass => ⟨_, hpass⟩
  | cons program rest ih =>
      intro optimizer pass hpass
      -- only the state changes, so the induction goes on with the same pass in another state
      obtain ⟨state, hstate⟩ := exists_state_optimize hpass program
      obtain ⟨state', hstate'⟩ := ih hstate
      exact ⟨state', hstate'⟩

theorem length_passes_optimize (optimizer : Optimizer) (program : Program) :
    (optimizer.optimize program).optimizer.passes.length = optimizer.passes.length := by
  by_cases hlevel : optimizer.level = .O0
  · rw [optimize_of_level_eq_O0 hlevel]
  · rw [optimize_of_level_ne_O0 hlevel]
    exact length_passes_runPasses optimizer.level optimizer.passes program

theorem length_passes_afterCalls (programs : List Program) : ∀ optimizer : Optimizer,
    (optimizer.afterCalls programs).passes.length = optimizer.passes.length := by
  induction programs with
  | nil => intro optimizer; rfl
  | cons program rest ih =>
      intro optimizer
      rw [afterCalls, List.foldl_cons, ← afterCalls, ih, length_passes_optimize]

/-! ## The account of a hoisting pass -/

theorem runsAt_hoistingAfter {level : Level} (hlevel : level ≠ .O0) (stats : HoistingStats) :
    (Pass.hoistingAfter stats).runsAt level = true := by
  cases level with
  | O0 => contradiction
  | O1 | O2 => rfl

/-- A call adds the account of a run on the program that reaches the pass. -/
theorem getElem?_hoistingAfter_optimize {position : Nat} {stats : HoistingStats}
    (hpass : optimizer.passes[position]? = some (.hoistingAfter stats)) (program : Program) :
    (optimizer.optimize program).optimizer.passes[position]? = some (.hoistingAfter
      (stats + ((optimizer.input? position program).toList.map (·.hoist.stats)).sum)) := by
  by_cases hlevel : optimizer.level = .O0
  · rw [optimize_of_level_eq_O0 hlevel, input?, if_pos hlevel]
    simp [hpass]
  · have hruns := runsAt_hoistingAfter hlevel stats
    rw [getElem?_passes_optimize hlevel, input?, if_neg hlevel, hpass, Option.map_some,
      if_pos hruns, Option.filter_some_pos hruns, Option.map_some, Option.toList_some,
      List.map_singleton, List.sum_singleton]
    rfl

theorem getElem?_hoistingAfter_afterCalls {position : Nat} (programs : List Program) :
    ∀ {optimizer : Optimizer} {stats : HoistingStats},
      optimizer.passes[position]? = some (.hoistingAfter stats) →
      (optimizer.afterCalls programs).passes[position]? = some (.hoistingAfter
        (stats + ((optimizer.inputs position programs).map (·.hoist.stats)).sum)) := by
  induction programs with
  | nil =>
      intro optimizer stats hpass
      simpa [inputs, afterCalls] using hpass
  | cons program rest ih =>
      intro optimizer stats hpass
      -- the account after the first call is where the other calls start from
      have hnext := ih (getElem?_hoistingAfter_optimize hpass program)
      rw [inputs, List.map_append, List.sum_append, ← add_assoc]
      exact hnext

end Optimizer

theorem Optimizer.inputs_of_level_eq_O0 {optimizer : Optimizer} (hlevel : optimizer.level = .O0)
    (position : Nat) (programs : List Program) : optimizer.inputs position programs = [] := by
  induction programs with
  | nil => rfl
  | cons program rest ih =>
      rw [Optimizer.inputs, Optimizer.input?, if_pos hlevel, Option.toList_none, List.nil_append,
        Optimizer.optimize_of_level_eq_O0 hlevel, ih]

/-- What a list of passes reports, seen from one of them. -/
theorem Pass.filterMap_report_eq {passes : List Pass} {position : Nat} {pass : Pass}
    (hpass : passes[position]? = some pass) :
    passes.filterMap Pass.report = (passes.take position).filterMap Pass.report ++
      pass.report.toList ++ (passes.drop (position + 1)).filterMap Pass.report := by
  obtain ⟨hposition, rfl⟩ := List.getElem?_eq_some_iff.mp hpass
  conv_lhs => rw [← List.take_append_drop position passes, List.drop_eq_getElem_cons hposition]
  rw [List.filterMap_append, List.filterMap_cons, List.append_assoc]
  cases passes[position].report <;> rfl

/-- A hoisting pass reports from the first value on. -/
theorem Pass.report_hoistingAfter (stats : HoistingStats) :
    (Pass.hoistingAfter stats).report =
      if 0 < stats.constantsHoisted then
        some ⟨.info, .dummy, "loop-hoisting: hoisted " ++ toString stats.constantsHoisted ++
          " loop-invariant expression(s) out of " ++ toString stats.loopsRewritten ++ " loop(s)"⟩
      else none := by
  have hreport : (Pass.hoistingAfter stats).report =
      stats.summary.map fun summary => ⟨.info, .dummy, "loop-hoisting" ++ ": " ++ summary⟩ := rfl
  have hstart : "loop-hoisting" ++ ": " ++ "hoisted " = "loop-hoisting: hoisted " := by decide
  rw [hreport, HoistingStats.summary]
  -- without a value there is no report, whatever the number of loops
  by_cases hzero : stats.constantsHoisted = 0
  · simp [hzero]
  · rw [if_neg hzero, if_pos (Nat.pos_of_ne_zero hzero), Option.map_some, ← hstart]
    simp only [String.append_assoc]

/-- **What a call does.**  The optimiser may have been called on any programs before: its passes are
those that were registered, in their order.

At `O0` a call gives the program back, runs nothing, and leaves passes and diagnostics as they are.
At any other level it gives what the passes that run at it make of the program, one after the other;
these are stepped on what reaches them, the others keep their states, and what the passes then have
to report is added to the diagnostics, pass by pass.

The account of a hoisting pass is the sum over all programs it was handed, and it is reported in its
place exactly when a value was hoisted. -/
theorem optimize_call (settings : Settings) (added : List Pass) (earlier : List Program)
    (program : Program) :
    let start := Optimizer.registered settings added
    let before := start.afterCalls earlier
    let call := before.optimize program
    (before.passes.length = start.passes.length ∧
      ∀ (position : Nat) (pass : Pass), start.passes[position]? = some pass →
        ∃ state, before.passes[position]? = some { pass with state := state }) ∧
    (settings.level = .O0 →
      call.replacement = none ∧ call.events = [] ∧ call.optimizer = before ∧ before = start) ∧
    (settings.level ≠ .O0 →
      call.replacement.getD program =
        Pass.applyAll (before.passes.filter (·.runsAt settings.level)) program ∧
      (∀ position : Nat, call.optimizer.passes[position]? = before.passes[position]?.map fun pass =>
        if pass.runsAt settings.level then
          pass.stepped (Pass.reaching settings.level before.passes position program)
        else pass) ∧
      call.optimizer.diagnostics =
        before.diagnostics ++ call.optimizer.passes.filterMap Pass.report) ∧
    ∀ position : Nat, start.passes[position]? = some .hoisting →
      let total := ((start.inputs position (earlier ++ [program])).map (·.hoist.stats)).sum
      call.optimizer.passes[position]? = some (.hoistingAfter total) ∧
      (settings.level = .O0 → total = 0) ∧
      (settings.level ≠ .O0 → call.optimizer.diagnostics =
        before.diagnostics ++ (call.optimizer.passes.take position).filterMap Pass.report ++
          (if 0 < total.constantsHoisted then
            [⟨.info, .dummy, "loop-hoisting: hoisted " ++ toString total.constantsHoisted ++
              " loop-invariant expression(s) out of " ++ toString total.loopsRewritten ++
              " loop(s)"⟩]
          else []) ++
          (call.optimizer.passes.drop (position + 1)).filterMap Pass.report) := by
  intro start before call
  have hstart : start.level = settings.level := Optimizer.level_registered settings added
  have hbefore : before.level = settings.level := (start.level_afterCalls earlier).trans hstart
  refine ⟨⟨?_, ?_⟩, ?_, ?_, ?_⟩
  · exact Optimizer.length_passes_afterCalls earlier start
  · exact fun position pass hpass => Optimizer.exists_state_afterCalls earlier hpass
  · intro hlevel
    have hnothing := Optimizer.optimize_of_level_eq_O0 (hbefore.trans hlevel) program
    refine ⟨?_, ?_, ?_, Optimizer.afterCalls_of_level_eq_O0 (hstart.trans hlevel) earlier⟩
    all_goals simp only [call, hnothing]
  · intro hlevel
    rw [← hbefore] at hlevel ⊢
    exact ⟨Optimizer.getD_replacement_optimize hlevel program,
      Optimizer.getElem?_passes_optimize hlevel program,
      Optimizer.diagnostics_optimize hlevel program⟩
  · intro position hpass total
    have hcall : call.optimizer.passes[position]? = some (.hoistingAfter total) := by
      -- a call after the earlier ones is the last of all of them
      have htotal := Optimizer.getElem?_hoistingAfter_afterCalls (earlier ++ [program]) hpass
      rw [Optimizer.afterCalls_append, zero_add] at htotal
      exact htotal
    refine ⟨hcall, fun hlevel => ?_, fun hlevel => ?_⟩
    · simp only [total, Optimizer.inputs_of_level_eq_O0 (hstart.trans hlevel), List.map_nil,
        List.sum_nil]
    · rw [← hbefore] at hlevel
      rw [Optimizer.diagnostics_optimize hlevel, Pass.filterMap_report_eq hcall,
        Pass.report_hoistingAfter]
      split <;> simp

open Sketch

/-- `while c do x := 1`. -/
def constantLoop : Program := ⟨loop (var "c") [assign "x" (int "1")], .dummy⟩

/-- A pass that counts its runs, from the third level on, and has counted two already. -/
def Pass.tally : Pass where
  name := "tally"
  minLevel := .O2
  State := Nat
  state := 2
  step count _ := ⟨count + 1, none, []⟩
  summarize count := some (toString count ++ " run(s)")

/-- At `O1` the second call on the same program reports both of its runs, and a pass that was never
run reports what it had counted before. -/
theorem optimize_call_tally :
    let start := Optimizer.registered default [.tally]
    let call := (start.afterCalls [constantLoop]).optimize constantLoop
    start.passes[0]? = some .hoisting ∧
      call.optimizer.passes[0]? = some (.hoistingAfter ⟨2, 2⟩) ∧
      call.optimizer.diagnostics.map Diagnostic.message =
        ["loop-hoisting: hoisted 1 loop-invariant expression(s) out of 1 loop(s)",
          "tally: 2 run(s)",
          "loop-hoisting: hoisted 2 loop-invariant expression(s) out of 2 loop(s)",
          "tally: 2 run(s)"] := by
  intro start call
  have htotal :
      ((start.inputs 0 [constantLoop, constantLoop]).map (·.hoist.stats)).sum = ⟨2, 2⟩ := by
    decide +kernel
  refine ⟨rfl, ?_, by decide +kernel⟩
  rw [← htotal]
  exact ((optimize_call default [.tally] [constantLoop] constantLoop).2.2.2 0 rfl).1

end LoopHoist
