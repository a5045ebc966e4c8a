import LoopHoist.Proofs.Meaning.Capture
import Mathlib.Data.List.Forall2

/-!
# When shadowed names change the meaning of a nest

An inner loop that takes the read of an outer constant declares it under a name of its own, and its
chain may have declared the name it reads already.  This file says exactly for which programs that
happens, in terms of the program as written (`Program.InStep`), and that it never goes unnoticed:
when a nest is out of step, its hoisted form means a program that assigns other values.

## Strategy

A captured read stands for a value that the outer loop does not take (`exists_settled`).  Such a
value is recognised wherever it turns up.  The value whose place it took is invariant for the outer
loop and it is not, and no expansion further out touches it, because it is not the read of a
constant.  `Settles` is the relation between the values before and after the expansion that carries
this through the induction over the rules.

The induction is done twice.  Inside a loop, `Within` says which loop that is and how many names it
has given out; the results about it feed those about commands that stand in no loop.
-/

namespace LoopHoist

universe u

variable {V : Type u}

/-! ## Values before and after an expansion -/

/-- One value can be told from another: some loop takes the second and not the first. -/
def Expression.Displaces (after before : Expression) : Prop :=
  ∃ assigned, (∀ name ∈ assigned, ¬ Reserved name) ∧ before.isInvariant assigned = true ∧
    after.isInvariant assigned = false

theorem Expression.Displaces.ne {after before : Expression} (hdisplaces : after.Displaces before) :
    after ≠ before := by
  rintro rfl
  obtain ⟨assigned, -, hbefore, hafter⟩ := hdisplaces
  rw [hbefore] at hafter
  contradiction

theorem Expression.Displaces.not_isReading {after before : Expression}
    (hdisplaces : after.Displaces before) : after.isReading = false := by
  obtain ⟨assigned, hassigned, -, hafter⟩ := hdisplaces
  exact isReading_eq_false_of_not_isInvariant hassigned hafter

/-- What expansion in order may make of a value that stands in a loop assigning `outer`.  In the
place of the read of an outer constant there is the read itself, or a value that the outer loop does
not take. -/
def Settles (outer : List String) (after before : Expression) : Prop :=
  after = before ∨
    after.Displaces before ∧ (before.isReading = true → after.isInvariant outer = false)

theorem Command.values_inlined (constants : List Constant) :
    ∀ command : Command,
      (command.inlined constants).values = command.values.map (Expression.inlined constants)
  | .assign .. | .call .. | .skip _ => rfl
  | .ifThenElse _ thenBranch elseBranch _ => by
      simp only [Command.inlined, Command.values, thenBranch.values_inlined,
        elseBranch.values_inlined, List.map_append]
  | .letIn _ body _ | .whileDo _ body _ => by
      simp only [Command.inlined, Command.values, body.values_inlined]
  | .seq first second _ => by
      simp only [Command.inlined, Command.values, first.values_inlined, second.values_inlined,
        List.map_append]

section

variable {inner outer : List String} {all : List Constant}

/-- Inlining the constants of a loop settles the values of its body if it settles the constants. -/
theorem forall₂_settles_inlined (hinner : ∀ name ∈ inner, ¬ Reserved name)
    (hreserved : ∀ constant ∈ all, Reserved constant.name) (hsub : inner ⊆ outer)
    {values : List Expression} :
    ∀ {issued : Nat} {expanded : List Expression},
      List.Forall₂ (Settles inner) expanded (afterExtraction inner issued values) →
      (∀ constant ∈ numbered issued (values.filter (·.isInvariant inner)),
        Settles outer (constant.reading.inlined all) constant.value) →
      List.Forall₂ (Settles outer) (expanded.map (Expression.inlined all)) values := by
  induction values with
  | nil =>
      intro issued expanded hexpanded _
      rw [List.forall₂_nil_right_iff.mp hexpanded]
      exact .nil
  | cons value rest ih =>
      intro issued expanded hexpanded hconstants
      by_cases hvalue : value.isInvariant inner = true
      · rw [afterExtraction, if_pos hvalue] at hexpanded
        rw [List.filter_cons_of_pos hvalue, numbered, List.forall_mem_cons] at hconstants
        obtain ⟨first, others, hfirst, hothers, rfl⟩ := List.forall₂_cons_right_iff.mp hexpanded
        refine .cons ?_ (ih hothers hconstants.2)
        rcases hfirst with rfl | ⟨hdisplaces, hread⟩
        · exact hconstants.1
        · -- a displaced value is not a read, so inlining passes over it
          have hnot := hread (isReading_readOf _)
          rw [Expression.inlined_of_not_isReading hreserved hdisplaces.not_isReading]
          refine .inr ⟨⟨inner, hinner, hvalue, hnot⟩, fun _ => ?_⟩
          cases hinvariant : first.isInvariant outer with
          | false => rfl
          | true => exact absurd (Expression.isInvariant_mono hsub hinvariant) (by simp [hnot])
      · rw [afterExtraction, if_neg hvalue] at hexpanded
        rw [List.filter_cons_of_neg hvalue] at hconstants
        obtain ⟨first, others, hfirst, hothers, rfl⟩ := List.forall₂_cons_right_iff.mp hexpanded
        refine .cons ?_ (ih hothers hconstants)
        -- the inner loop leaves the value, so it is no read of a constant
        have hreading := isReading_eq_false_of_not_isInvariant hinner (by simpa using hvalue)
        rcases hfirst with rfl | ⟨hdisplaces, -⟩
        · exact .inl (Expression.inlined_of_not_isReading hreserved hreading)
        · rw [Expression.inlined_of_not_isReading hreserved hdisplaces.not_isReading]
          exact .inr ⟨hdisplaces, by simp [hreading]⟩

/-- If inlining gives the values back, nothing was displaced. -/
theorem eq_afterExtraction_of_map_inlined
    (hreserved : ∀ constant ∈ all, Reserved constant.name) {values : List Expression} :
    ∀ {issued : Nat} {expanded : List Expression},
      List.Forall₂ (Settles inner) expanded (afterExtraction inner issued values) →
      expanded.map (Expression.inlined all) = values →
      expanded = afterExtraction inner issued values := by
  induction values with
  | nil =>
      intro issued expanded hexpanded _
      exact List.forall₂_nil_right_iff.mp hexpanded
  | cons value rest ih =>
      intro issued expanded hexpanded hmap
      by_cases hvalue : value.isInvariant inner = true
      · rw [afterExtraction, if_pos hvalue] at hexpanded ⊢
        obtain ⟨first, others, hfirst, hothers, rfl⟩ := List.forall₂_cons_right_iff.mp hexpanded
        obtain ⟨hhead, htail⟩ := List.cons.inj hmap
        rcases hfirst with rfl | ⟨hdisplaces, hread⟩
        · rw [ih hothers htail]
        · -- the loop takes the value but not the one found in its place
          rw [Expression.inlined_of_not_isReading hreserved hdisplaces.not_isReading] at hhead
          rw [← hhead, hread (isReading_readOf _)] at hvalue
          contradiction
      · rw [afterExtraction, if_neg hvalue] at hexpanded ⊢
        obtain ⟨first, others, hfirst, hothers, rfl⟩ := List.forall₂_cons_right_iff.mp hexpanded
        obtain ⟨hhead, htail⟩ := List.cons.inj hmap
        rcases hfirst with rfl | ⟨hdisplaces, -⟩
        · rw [ih hothers htail]
        · rw [Expression.inlined_of_not_isReading hreserved hdisplaces.not_isReading] at hhead
          exact absurd hhead hdisplaces.ne

/-- If inlining gives the values back, each constant was replaced by its value as written. -/
theorem reading_inlined_of_map_inlined {values : List Expression} :
    ∀ {issued : Nat}, (afterExtraction inner issued values).map (Expression.inlined all) = values →
      ∀ constant ∈ numbered issued (values.filter (·.isInvariant inner)),
        constant.reading.inlined all = constant.value := by
  induction values with
  | nil => intro issued _ constant hmem; simp [numbered] at hmem
  | cons value rest ih =>
      intro issued hmap
      by_cases hvalue : value.isInvariant inner = true
      · rw [afterExtraction, if_pos hvalue] at hmap
        obtain ⟨hhead, htail⟩ := List.cons.inj hmap
        rw [List.filter_cons_of_pos hvalue, numbered, List.forall_mem_cons]
        exact ⟨hhead, ih htail⟩
      · rw [afterExtraction, if_neg hvalue] at hmap
        rw [List.filter_cons_of_neg hvalue]
        exact ih (List.cons.inj hmap).2

end

/-! ## A loop inside another -/

namespace Within

variable {outer : List String} {taken : Nat} {source body middle expanded : Command}
  {constants : List Constant}

theorem not_isReading (hwithin : Within outer taken source body) :
    ∀ value ∈ source.taken, value.isReading = false := fun _ hmem =>
  Expression.not_isReading
    (hwithin.unreserved.not_reserved_of_mem_values (List.mem_filter.mp hmem).1)

theorem settles_constants (hwithin : Within outer taken source body)
    (hextract : Extracts body.assigned 0 body middle constants) :
    ∀ constant ∈ constants,
      Settles outer (constant.reading.inlined (Constant.inOrder constants)) constant.value := by
  rw [hwithin.constants_eq hextract]
  intro constant hmem
  obtain ⟨i, value, hvalue, hname, hwritten⟩ := exists_of_mem_innerConstants hmem
  obtain ⟨settled, hslot, hsettled⟩ := exists_settled outer taken hwithin.not_isReading hvalue
  rw [reading_inlined_inOrder hname hslot]
  split at hsettled
  · -- a captured read: what it stands for is not invariant for the outer loop, and the read is
    rename_i hcaptured
    rw [getElem?_afterExtraction outer taken hvalue, if_pos hcaptured.1] at hwritten
    obtain hread := Option.some.inj hwritten
    refine .inr ⟨⟨outer, hwithin.outer_unreserved, ?_, hsettled⟩, fun _ => hsettled⟩
    rw [← hread]
    exact isInvariant_of_isReading hwithin.outer_unreserved (isReading_readOf _)
  · exact .inl (Option.some.inj (hsettled.symm.trans hwritten))

/-- What expansion in order makes of the values of an inner loop, from what it makes of the values
that the extraction of the inner loop left. -/
theorem forall₂_settles_loop (hwithin : Within outer taken source body)
    (hextract : Extracts body.assigned 0 body middle constants)
    (hexpanded : List.Forall₂ (Settles body.assigned) expanded.values middle.values) :
    List.Forall₂ (Settles outer) (expanded.inlined (Constant.inOrder constants)).values
      body.values := by
  rw [hextract.values_eq] at hexpanded
  rw [Command.values_inlined]
  refine forall₂_settles_inlined (hwithin.inner hextract).outer_unreserved
    (Constant.reserved_of_mem_inOrder fun _ => hextract.reserved_name)
    (hwithin.assigned_eq ▸ hwithin.assigned_subset) hexpanded ?_
  rw [← hextract.constants_eq]
  exact hwithin.settles_constants hextract

/-- If expansion in order gives the values of an inner loop back, the loop is in step. -/
theorem inStep_of_values_eq (hwithin : Within outer taken source body)
    (hextract : Extracts body.assigned 0 body middle constants)
    (hexpanded : List.Forall₂ (Settles body.assigned) expanded.values middle.values)
    (hvalues : (expanded.inlined (Constant.inOrder constants)).values = body.values) :
    Nested.InStep outer ⟨taken, source⟩ ∧ expanded.values = middle.values := by
  rw [Command.values_inlined] at hvalues
  rw [hextract.values_eq] at hexpanded ⊢
  have heq := eq_afterExtraction_of_map_inlined
    (Constant.reserved_of_mem_inOrder fun _ => hextract.reserved_name) hexpanded hvalues
  refine ⟨?_, heq⟩
  rw [heq] at hvalues
  -- so each read stands for the value of its own constant: none was captured
  have hread := reading_inlined_of_map_inlined hvalues
  rw [← hextract.constants_eq, hwithin.constants_eq hextract] at hread
  exact Nested.inStep_of_reading_inlined hwithin.outer_unreserved hwithin.not_isReading hread

/-- Expansion in order gives the body of an inner loop back if the loop is in step. -/
theorem bare_loop_of_inStep (hwithin : Within outer taken source body)
    (hextract : Extracts body.assigned 0 body middle constants)
    (hstep : Nested.InStep outer ⟨taken, source⟩) (hexpanded : expanded.bare = middle.bare) :
    (expanded.inlined (Constant.inOrder constants)).bare = body.bare := by
  have horder : Constant.inOrder constants = constants := by
    rw [hwithin.constants_eq hextract]
    exact hstep.inOrder_eq_self hwithin.not_isReading
  rw [horder]
  exact hextract.bare_inlined hwithin.keepsReserved hexpanded

end Within

/-! ## Every nest -/

theorem Expands.length_values {settle : List Constant → List Constant} {command expanded : Command}
    (hexpands : Expands settle command expanded) :
    expanded.values.length = command.values.length := by
  induction hexpands with
  | assign | call | skip => rfl
  | ifThenElse _ _ ihFirst ihSecond | seq _ _ ihFirst ihSecond =>
      simp only [Command.values, List.length_append, ihFirst, ihSecond]
  | letIn _ ih => exact ih
  | whileDo hextract _ ih =>
      rw [Command.values, Command.values_inlined, List.length_map, ih, hextract.values_eq,
        length_afterExtraction, Command.values]

section

variable {command expanded : Command}

/-- Expansion in order settles every value of a command inside a loop. -/
theorem Expands.forall₂_settles (hexpands : Expands Constant.inOrder command expanded) :
    ∀ {outer : List String} {taken : Nat} {source : Command}, Within outer taken source command →
      List.Forall₂ (Settles outer) expanded.values command.values := by
  induction hexpands with
  | assign => intro outer taken source _; exact .cons (.inl rfl) .nil
  | call | skip => intro outer taken source _; exact .nil
  | ifThenElse _ _ ihThen ihElse =>
      intro outer taken source hwithin
      obtain ⟨_, _, _, rfl, hthen, helse⟩ := hwithin.ifThenElse
      exact List.rel_append (ihThen hthen) (ihElse helse)
  | letIn _ ih =>
      intro outer taken source hwithin
      obtain ⟨_, _, rfl, hbody⟩ := hwithin.letIn
      exact ih hbody
  | seq _ _ ihFirst ihSecond =>
      intro outer taken source hwithin
      obtain ⟨_, _, _, rfl, hfirst, hsecond⟩ := hwithin.seq
      exact List.rel_append (ihFirst hfirst) (ihSecond hsecond)
  | whileDo hextract _ ih =>
      intro outer taken source hwithin
      obtain ⟨_, _, rfl, hbody⟩ := hwithin.whileDo
      exact hbody.forall₂_settles_loop hextract (ih (hbody.inner hextract))

/-- A command inside a loop comes back from expansion in order if all its loops are in step. -/
theorem Expands.bare_of_inStepIn (hexpands : Expands Constant.inOrder command expanded) :
    ∀ {outer : List String} {taken : Nat} {source : Command}, Within outer taken source command →
      source.InStepIn outer taken → source.InStep → expanded.bare = command.bare := by
  induction hexpands with
  | assign | call | skip => intro outer taken source _ _ _; rfl
  | ifThenElse _ _ ihThen ihElse =>
      intro outer taken source hwithin hstepIn hstep
      obtain ⟨_, _, _, rfl, hthen, helse⟩ := hwithin.ifThenElse
      rw [Command.inStepIn_ifThenElse] at hstepIn
      rw [Command.inStep_ifThenElse] at hstep
      rw [Command.bare, ihThen hthen hstepIn.1 hstep.1, ihElse helse hstepIn.2 hstep.2,
        Command.bare]
  | letIn _ ih =>
      intro outer taken source hwithin hstepIn hstep
      obtain ⟨_, _, rfl, hbody⟩ := hwithin.letIn
      rw [Command.bare, ih hbody hstepIn hstep, Command.bare]
  | seq _ _ ihFirst ihSecond =>
      intro outer taken source hwithin hstepIn hstep
      obtain ⟨_, _, _, rfl, hfirst, hsecond⟩ := hwithin.seq
      rw [Command.inStepIn_seq] at hstepIn
      rw [Command.inStep_seq] at hstep
      rw [Command.bare, ihFirst hfirst hstepIn.1 hstep.1, ihSecond hsecond hstepIn.2 hstep.2,
        Command.bare]
  | whileDo hextract _ ih =>
      intro outer taken source hwithin hstepIn hstep
      obtain ⟨_, _, rfl, hbody⟩ := hwithin.whileDo
      rw [Command.inStepIn_whileDo] at hstepIn
      rw [Command.inStep_whileDo, ← hbody.assigned_eq] at hstep
      rw [Command.bare, hbody.bare_loop_of_inStep hextract hstepIn
        (ih (hbody.inner hextract) hstep.1 hstep.2), Command.bare]

/-- If a command inside a loop has its values back after expansion in order, its loops are in step.
-/
theorem Expands.inStepIn_of_values_eq (hexpands : Expands Constant.inOrder command expanded) :
    ∀ {outer : List String} {taken : Nat} {source : Command}, Within outer taken source command →
      expanded.values = command.values → source.InStepIn outer taken ∧ source.InStep := by
  induction hexpands with
  | assign | call | skip =>
      intro outer taken source hwithin _
      obtain ⟨_, hextract⟩ := hwithin.extracts
      cases hextract <;> simp [Command.InStepIn, Command.InStep, Command.nested, Command.loops]
  | ifThenElse hthenExpands _ ihThen ihElse =>
      intro outer taken source hwithin hvalues
      obtain ⟨_, _, _, rfl, hthen, helse⟩ := hwithin.ifThenElse
      -- expansion keeps the number of values, so the two parts compare one by one
      obtain ⟨hthenValues, helseValues⟩ := List.append_inj hvalues hthenExpands.length_values
      have ihThen := ihThen hthen hthenValues
      have ihElse := ihElse helse helseValues
      exact ⟨Command.inStepIn_ifThenElse.mpr ⟨ihThen.1, ihElse.1⟩,
        Command.inStep_ifThenElse.mpr ⟨ihThen.2, ihElse.2⟩⟩
  | letIn _ ih =>
      intro outer taken source hwithin hvalues
      obtain ⟨_, _, rfl, hbody⟩ := hwithin.letIn
      rw [Command.inStepIn_letIn, Command.inStep_letIn]
      exact ih hbody hvalues
  | seq hfirstExpands _ ihFirst ihSecond =>
      intro outer taken source hwithin hvalues
      obtain ⟨_, _, _, rfl, hfirst, hsecond⟩ := hwithin.seq
      obtain ⟨hfirstValues, hsecondValues⟩ := List.append_inj hvalues hfirstExpands.length_values
      have ihFirst := ihFirst hfirst hfirstValues
      have ihSecond := ihSecond hsecond hsecondValues
      exact ⟨Command.inStepIn_seq.mpr ⟨ihFirst.1, ihSecond.1⟩,
        Command.inStep_seq.mpr ⟨ihFirst.2, ihSecond.2⟩⟩
  | whileDo hextract hmiddle ih =>
      intro outer taken source hwithin hvalues
      obtain ⟨_, _, rfl, hbody⟩ := hwithin.whileDo
      have hinner := hbody.inner hextract
      obtain ⟨hstep, hexpanded⟩ := hbody.inStep_of_values_eq hextract
        (hmiddle.forall₂_settles hinner) hvalues
      rw [Command.inStepIn_whileDo, Command.inStep_whileDo, ← hbody.assigned_eq]
      exact ⟨hstep, ih hinner hexpanded⟩

/-- A loop that stands in no other has nothing to capture. -/
theorem inOrder_eq_self_of_unreserved {body middle : Command} {constants : List Constant}
    (hbody : body.Unreserved) (hextract : Extracts body.assigned 0 body middle constants) :
    Constant.inOrder constants = constants := by
  refine Constant.inOrder_eq_self (List.pairwise_of_forall_mem_list ?_)
  intro earlier hearlier later hlater hname
  exact hbody.not_reserved_of_mem_values (hextract.value_mem hlater).1 _ hname
    (hextract.reserved_name hearlier)

theorem Expands.bare_of_inStep (hexpands : Expands Constant.inOrder command expanded)
    (hcommand : command.Unreserved) (hstep : command.InStep) : expanded.bare = command.bare := by
  induction hexpands with
  | assign | call | skip => rfl
  | ifThenElse _ _ ihThen ihElse =>
      obtain ⟨-, hthen, helse⟩ := Command.unreserved_ifThenElse.mp hcommand
      rw [Command.inStep_ifThenElse] at hstep
      rw [Command.bare, ihThen hthen hstep.1, ihElse helse hstep.2, Command.bare]
  | letIn _ ih =>
      rw [Command.bare, ih (Command.unreserved_letIn.mp hcommand).2 hstep, Command.bare]
  | seq _ _ ihFirst ihSecond =>
      obtain ⟨hfirst, hsecond⟩ := Command.unreserved_seq.mp hcommand
      rw [Command.inStep_seq] at hstep
      rw [Command.bare, ihFirst hfirst hstep.1, ihSecond hsecond hstep.2, Command.bare]
  | whileDo hextract hmiddle _ =>
      have hbody := (Command.unreserved_whileDo.mp hcommand).2
      rw [Command.inStep_whileDo] at hstep
      have hexpanded := hmiddle.bare_of_inStepIn (.of_extracts hbody hextract) hstep.1 hstep.2
      rw [Command.bare, inOrder_eq_self_of_unreserved hbody hextract,
        hextract.bare_inlined (Command.keepsReserved_of_unreserved _ hbody) hexpanded, Command.bare]

theorem Expands.inStep_of_values_eq (hexpands : Expands Constant.inOrder command expanded)
    (hcommand : command.Unreserved) (hvalues : expanded.values = command.values) :
    command.InStep := by
  induction hexpands with
  | assign | call | skip => simp [Command.InStep, Command.loops]
  | ifThenElse hthenExpands _ ihThen ihElse =>
      obtain ⟨-, hthen, helse⟩ := Command.unreserved_ifThenElse.mp hcommand
      obtain ⟨hthenValues, helseValues⟩ := List.append_inj hvalues hthenExpands.length_values
      exact Command.inStep_ifThenElse.mpr ⟨ihThen hthen hthenValues, ihElse helse helseValues⟩
  | letIn _ ih => exact ih (Command.unreserved_letIn.mp hcommand).2 hvalues
  | seq hfirstExpands _ ihFirst ihSecond =>
      obtain ⟨hfirst, hsecond⟩ := Command.unreserved_seq.mp hcommand
      obtain ⟨hfirstValues, hsecondValues⟩ := List.append_inj hvalues hfirstExpands.length_values
      exact Command.inStep_seq.mpr ⟨ihFirst hfirst hfirstValues, ihSecond hsecond hsecondValues⟩
  | whileDo hextract hmiddle _ =>
      have hbody := (Command.unreserved_whileDo.mp hcommand).2
      -- nothing can be captured around this loop, but in the loops inside it something can
      have hwithin := Within.of_extracts hbody hextract
      have hsettles := hmiddle.forall₂_settles hwithin
      rw [hextract.values_eq] at hsettles
      rw [Command.values, Command.values_inlined] at hvalues
      have hexpanded := eq_afterExtraction_of_map_inlined
        (Constant.reserved_of_mem_inOrder fun _ => hextract.reserved_name) hsettles hvalues
      rw [Command.inStep_whileDo]
      exact hmiddle.inStepIn_of_values_eq hwithin (hexpanded.trans hextract.values_eq.symm)

/-- Expansion in order gives exactly the commands back whose loops are in step. -/
theorem Expands.bare_eq_iff_inStep (hexpands : Expands Constant.inOrder command expanded)
    (hcommand : command.Unreserved) : expanded.bare = command.bare ↔ command.InStep := by
  refine ⟨fun hbare => hexpands.inStep_of_values_eq hcommand ?_, hexpands.bare_of_inStep hcommand⟩
  rw [← expanded.values_bare, hbare, command.values_bare]

end

/-! ## The meaning of a hoisted nest -/

/-- **What hoisting does to the meaning of nested loops.**  A hoisted program means its expansion in
order.  That expansion is the program itself exactly when every loop of the program is in step with
the loop around it, and then hoisting preserves the meaning of the program. -/
theorem meaning_optimise_of_inStep (program : Program) (hplain : program.command.isPlain = true)
    (hprogram : program.Unreserved) :
    (∀ {V : Type u} (I : Interpretation V) (store final : Store V),
      Runs I program.optimise.command store final ↔
        Runs I (program.optimise.command.expandBy Constant.inOrder) store final) ∧
    ((program.optimise.command.expandBy Constant.inOrder).bare = program.command.bare ↔
      program.InStep) ∧
    (program.InStep → ∀ {V : Type u} (I : Interpretation V) (store final : Store V),
      Runs I program.command store final ↔ Runs I program.optimise.command store final) := by
  have hbare : (program.optimise.command.expandBy Constant.inOrder).bare = program.command.bare ↔
      program.InStep := by
    rw [Program.optimise_command]
    exact ((hoists_hoisted program.command).expands Constant.inOrder_nil
      (program.command.keepsReserved_of_unreserved hprogram)).bare_eq_iff_inStep hprogram
  refine ⟨runs_optimise_iff_runs_inOrder program hplain hprogram, hbare, ?_⟩
  intro hstep V I store final
  rw [runs_optimise_iff_runs_inOrder program hplain hprogram,
    runs_congr_of_bare (hbare.mpr hstep)]

/-- The outer loop of this nest has taken one value when the inner one takes its first. -/
theorem meaning_optimise_of_inStep_steadyNest :
    steadyNest.command.isPlain = true ∧ steadyNest.Unreserved ∧ steadyNest.InStep ∧
      (steadyNest.optimise.command.expandBy Constant.inOrder).bare = steadyNest.command.bare ∧
      ∃ final, Runs .arithmetic steadyNest.command relayStore final ∧
        Runs .arithmetic steadyNest.optimise.command relayStore final ∧ final "z" = 7 := by
  have hplain : steadyNest.command.isPlain = true := by decide
  have hnames : steadyNest.Unreserved := by decide
  have hstep : steadyNest.InStep := by decide +kernel
  obtain ⟨-, hbare, hruns⟩ := meaning_optimise_of_inStep steadyNest hplain hnames
  obtain ⟨final, hfinal, hvalue⟩ :
      ∃ final, Runs .arithmetic steadyNest.command relayStore final ∧ final "z" = 7 :=
    exists_runs_of_run 3 (by decide +kernel)
  exact ⟨hplain, hnames, hstep, hbare.mpr hstep, final, hfinal,
    (hruns hstep _ _ _).mp hfinal, hvalue⟩

/-- With nothing before the inner loop its chain is `$h1 ~ i; $h2 ~ $h1` while the outer `$h1` holds
`7`: the program ends with `7` in `z`, and the hoisted one with the value of `i`. -/
theorem relayNest_optimise_changes_meaning :
    (relayNest []).command.isPlain = true ∧ (relayNest []).Unreserved ∧ ¬ (relayNest []).InStep ∧
      ∃ final final', Runs .arithmetic (relayNest []).command relayStore final ∧
        Runs .arithmetic (relayNest []).optimise.command relayStore final' ∧
        final "z" = 7 ∧ final' "z" = 1 ∧
        ¬ Runs .arithmetic (relayNest []).optimise.command relayStore final := by
  obtain ⟨final, hfinal, hvalue⟩ :
      ∃ final, Runs .arithmetic (relayNest []).command relayStore final ∧ final "z" = 7 :=
    exists_runs_of_run 3 (by decide +kernel)
  obtain ⟨final', hfinal', hvalue'⟩ :
      ∃ final, Runs .arithmetic (relayNest []).optimise.command relayStore final ∧
        final "z" = 1 :=
    exists_runs_of_run 3 (by decide +kernel)
  refine ⟨by decide, by decide, by decide +kernel, final, final', hfinal, hfinal', hvalue, hvalue',
    fun hboth => ?_⟩
  rw [hboth.deterministic hfinal', hvalue'] at hvalue
  contradiction

end LoopHoist
