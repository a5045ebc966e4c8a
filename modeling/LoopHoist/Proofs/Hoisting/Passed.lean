import LoopHoist.Proofs.Hoisting.Nesting

/-!
# Variables handed to procedures

A procedure may change the variables it is handed as `var` arguments.  `Command.passed` lists them.
Extraction does not look at calls, so a variable that a loop changes only through a call counts as
unchanged, and a value that reads it can be taken out of the loop.

`avoidsPassed_optimise_iff` says exactly when that happens.  The constants around the loops of a
hoisted program read no variable that their loop hands to a procedure if and only if no loop of the
program as written assigns a value that it would take and that reads such a variable.

## Strategy

Both sides are statements about loops, of the hoisted program and of the source, and hoisting
changes the values in a loop before it looks at the loops inside.  `Extracts.forall_loops_iff` says
that this makes no difference: a read put in the place of a value reads a reserved name, which
nobody hands to a procedure, and the value itself was checked for the loop that took it.
-/

namespace LoopHoist

/-- The variable that an argument hands over, if it hands one over. -/
def ActualParameter.passed : ActualParameter → List String
  | .var vname => [vname.base.spelling]
  | .const _ | .proc _ | .func _ => []

/-- The variables that the calls in a command hand over: in a sequence, in either arm of a
conditional, in the body of a loop or in the body of a block. -/
def Command.passed : Command → List String
  | .assign .. | .skip _ => []
  | .call _ arguments _ => arguments.flatMap ActualParameter.passed
  | .ifThenElse _ thenBranch elseBranch _ => thenBranch.passed ++ elseBranch.passed
  | .letIn _ body _ => body.passed
  | .seq first second _ => first.passed ++ second.passed
  | .whileDo _ body _ => body.passed

/-- No value in a command that a loop assigning `assigned` would take reads a variable that the
command hands over. -/
def Command.AvoidsPassed (assigned : List String) (command : Command) : Prop :=
  ∀ value ∈ command.values, value.isInvariant assigned = true → ∀ name ∈ value.free,
    name ∉ command.passed

instance (assigned : List String) (command : Command) : Decidable (command.AvoidsPassed assigned) :=
  inferInstanceAs (Decidable (∀ value ∈ command.values, _))

/-- No constant around a loop reads a variable that the body of the loop hands over. -/
def Block.AvoidsPassed (block : Block) : Prop :=
  ∀ constant ∈ block.constants, ∀ name ∈ constant.value.free, name ∉ block.body.passed

instance (block : Block) : Decidable block.AvoidsPassed :=
  inferInstanceAs (Decidable (∀ constant ∈ block.constants, _))

/-! ## Nobody hands over a reserved name -/

theorem ActualParameter.passed_subset_identifiersAll (arguments : List ActualParameter) :
    arguments.flatMap ActualParameter.passed ⊆ ActualParameter.identifiersAll arguments := by
  induction arguments with
  | nil => simp
  | cons argument rest ih =>
      rw [List.flatMap_cons, ActualParameter.identifiersAll, List.append_subset]
      refine ⟨?_, List.subset_append_of_subset_right _ ih⟩
      cases argument with
      | var vname =>
          simp [ActualParameter.passed, ActualParameter.identifiers, vname.base_mem_identifiers]
      | const | proc | func => simp [ActualParameter.passed]

theorem Command.Unreserved.not_reserved_of_passed {name : String} :
    ∀ {command : Command}, command.Unreserved → name ∈ command.passed → ¬ Reserved name
  | .assign .., _, hname | .skip _, _, hname => by simp [Command.passed] at hname
  | .call _ arguments _, hcommand, hname => by
      refine hcommand name ?_
      rw [Command.identifiers]
      exact List.mem_cons_of_mem _ (ActualParameter.passed_subset_identifiersAll arguments hname)
  | .ifThenElse .., hcommand, hname => by
      obtain ⟨-, hthen, helse⟩ := Command.unreserved_ifThenElse.mp hcommand
      rcases List.mem_append.mp hname with hmem | hmem
      · exact hthen.not_reserved_of_passed hmem
      · exact helse.not_reserved_of_passed hmem
  | .letIn .., hcommand, hname =>
      (Command.unreserved_letIn.mp hcommand).2.not_reserved_of_passed hname
  | .seq .., hcommand, hname => by
      obtain ⟨hfirst, hsecond⟩ := Command.unreserved_seq.mp hcommand
      rcases List.mem_append.mp hname with hmem | hmem
      · exact hfirst.not_reserved_of_passed hmem
      · exact hsecond.not_reserved_of_passed hmem
  | .whileDo .., hcommand, hname =>
      (Command.unreserved_whileDo.mp hcommand).2.not_reserved_of_passed hname

/-! ## Extraction and hoisting leave calls alone -/

theorem Extracts.passed_eq {assigned : List String} {issued : Nat} {command command' : Command}
    {constants : List Constant} (hextract : Extracts assigned issued command command' constants) :
    command'.passed = command.passed := by
  induction hextract with
  | taken | left | call | skip => rfl
  | ifThenElse _ _ ihFirst ihSecond | seq _ _ ihFirst ihSecond =>
      simp only [Command.passed, ihFirst, ihSecond]
  | letIn _ ih | whileDo _ ih => exact ih

theorem Hoists.passed_eq {command command' : Command} (hhoists : Hoists command command') :
    command'.passed = command.passed := by
  induction hhoists with
  | assign | call | skip => rfl
  | ifThenElse _ _ ihFirst ihSecond | seq _ _ ihFirst ihSecond =>
      simp only [Command.passed, ihFirst, ihSecond]
  | letIn _ ih => exact ih
  | kept hextract _ ih | wrapped hextract _ _ ih =>
      simp only [Command.passed, ih, hextract.passed_eq]

/-! ## Loops before and after an extraction -/

theorem mem_afterExtraction {outer : List String} {values : List Expression} {value : Expression}
    {taken : Nat} (hmem : value ∈ afterExtraction outer taken values) :
    value.isReading = true ∨ value ∈ values := by
  induction values generalizing taken with
  | nil => simp [afterExtraction] at hmem
  | cons first rest ih =>
      unfold afterExtraction at hmem
      split at hmem
      · rcases List.mem_cons.mp hmem with rfl | hrest
        · exact .inl (isReading_readOf _)
        · exact (ih hrest).imp_right (List.mem_cons_of_mem _)
      · rcases List.mem_cons.mp hmem with rfl | hrest
        · exact .inr (List.mem_cons_self ..)
        · exact (ih hrest).imp_right (List.mem_cons_of_mem _)

theorem mem_afterExtraction_of_mem {outer : List String} {values : List Expression}
    {value : Expression} {taken : Nat} (hmem : value ∈ values) :
    value.isInvariant outer = true ∨ value ∈ afterExtraction outer taken values := by
  obtain ⟨i, hi⟩ := List.mem_iff_getElem?.mp hmem
  by_cases hvalue : value.isInvariant outer = true
  · exact .inl hvalue
  · have hslot := getElem?_afterExtraction outer taken hi
    rw [if_neg hvalue] at hslot
    exact .inr (List.mem_of_getElem? hslot)

section

variable {outer : List String} {taken : Nat} {command command' : Command}
  {constants : List Constant}

/-- An extraction does not change whether a loop inside avoids what it hands over, if what was taken
for the outer loop does. -/
theorem Extracts.avoidsPassed_iff (hextract : Extracts outer taken command command' constants)
    (hpassed : ∀ name ∈ command.passed, ¬ Reserved name) (houter : command.AvoidsPassed outer)
    (inner : List String) : command'.AvoidsPassed inner ↔ command.AvoidsPassed inner := by
  unfold Command.AvoidsPassed
  rw [hextract.values_eq, hextract.passed_eq]
  constructor
  · intro havoids value hvalue hinvariant
    rcases mem_afterExtraction_of_mem hvalue with htaken | hleft
    · exact houter value hvalue htaken
    · exact havoids value hleft hinvariant
  · intro havoids value hvalue hinvariant
    rcases mem_afterExtraction hvalue with hreading | hwritten
    · -- the read of an outer constant
      obtain ⟨name, span, span', rfl, hreserved⟩ := Expression.exists_of_isReading hreading
      intro other hother hmem
      obtain rfl : other = name.spelling := by simpa [Expression.free, Vname.free] using hother
      exact hpassed _ hmem hreserved
    · exact havoids value hwritten hinvariant

theorem Extracts.forall_loops_iff (hextract : Extracts outer taken command command' constants)
    (hpassed : ∀ name ∈ command.passed, ¬ Reserved name) (houter : command.AvoidsPassed outer) :
    (∀ body ∈ command'.loops, body.AvoidsPassed body.assigned) ↔
      ∀ body ∈ command.loops, body.AvoidsPassed body.assigned := by
  induction hextract with
  | taken | left | call | skip => rfl
  | ifThenElse _ _ ihFirst ihSecond | seq _ _ ihFirst ihSecond =>
      rw [Command.passed, List.forall_mem_append] at hpassed
      simp only [Command.AvoidsPassed, Command.values, Command.passed, List.mem_append,
        not_or] at houter
      simp only [Command.loops, List.forall_mem_append]
      rw [ihFirst hpassed.1 fun value hvalue hinvariant name hname =>
          (houter value (.inl hvalue) hinvariant name hname).1,
        ihSecond hpassed.2 fun value hvalue hinvariant name hname =>
          (houter value (.inr hvalue) hinvariant name hname).2]
  | letIn _ ih => exact ih hpassed houter
  | whileDo hbody ih =>
      -- what the outer loop takes out of the inner one has been checked for the outer loop
      simp only [Command.loops, List.forall_mem_cons]
      rw [hbody.avoidsPassed_iff hpassed houter, hbody.assigned_eq, ih hpassed houter]

end

/-! ## The blocks of a hoisted command -/

/-- The constants of a loop avoid what the loop hands over exactly when the values it takes do. -/
theorem Extracts.block_avoidsPassed_iff {body middle body' : Command} {constants : List Constant}
    (hextract : Extracts body.assigned 0 body middle constants) (hbody : Hoists middle body') :
    Block.AvoidsPassed ⟨constants, body'⟩ ↔ body.AvoidsPassed body.assigned := by
  unfold Block.AvoidsPassed Command.AvoidsPassed
  rw [hbody.passed_eq, hextract.passed_eq]
  constructor
  · intro havoids value hvalue hinvariant
    have hmem : value ∈ constants.map Constant.value := by
      rw [hextract.constants_eq, map_value_numbered]
      exact List.mem_filter.mpr ⟨hvalue, hinvariant⟩
    obtain ⟨constant, hconstant, rfl⟩ := List.mem_map.mp hmem
    exact havoids constant hconstant
  · intro havoids constant hmem
    obtain ⟨hvalue, hinvariant⟩ := hextract.value_mem hmem
    exact havoids constant.value hvalue hinvariant

theorem Hoists.forall_blocks_iff {command command' : Command} (hhoists : Hoists command command')
    (hcommand : command.KeepsReserved) (hpassed : ∀ name ∈ command.passed, ¬ Reserved name) :
    (∀ block ∈ command'.blocks, block.AvoidsPassed) ↔
      ∀ body ∈ command.loops, body.AvoidsPassed body.assigned := by
  induction hhoists with
  | assign | call | skip => simp [Command.blocks, Command.loops]
  | ifThenElse _ _ ihFirst ihSecond | seq _ _ ihFirst ihSecond =>
      rw [Command.passed, List.forall_mem_append] at hpassed
      simp only [Command.blocks, Command.loops, List.forall_mem_append]
      rw [ihFirst hcommand.1 hpassed.1, ihSecond hcommand.2 hpassed.2]
  | letIn _ ih =>
      rw [Command.blocks_letIn_of_none hcommand.1]
      exact ih hcommand.2 hpassed
  | kept hextract hbody ih =>
      have ih := ih (hextract.keepsReserved hcommand) (hextract.passed_eq ▸ hpassed)
      -- the loop takes nothing, so nothing that it takes reads anything
      have hblock := (hextract.block_avoidsPassed_iff hbody).mp (by simp [Block.AvoidsPassed])
      simp only [Command.blocks, Command.loops, List.forall_mem_cons]
      rw [ih, hextract.forall_loops_iff hpassed hblock]
      exact ⟨fun hloops => ⟨hblock, hloops⟩, And.right⟩
  | wrapped hextract hchain hbody ih =>
      have ih := ih (hextract.keepsReserved hcommand) (hextract.passed_eq ▸ hpassed)
      rw [Command.blocks_letIn_whileDo_of_some
        (constants?_of_chain? (fun _ => hextract.reserved_name) hchain)]
      simp only [Command.loops, List.forall_mem_cons]
      rw [hextract.block_avoidsPassed_iff hbody, ih]
      exact and_congr_right (hextract.forall_loops_iff hpassed)

/-- **Which variables changed through calls are taken for unchanged.**  The constants that hoisting
puts around loops read no variable that their loop hands to a procedure exactly when every loop of
the program as written reads none in the values it takes. -/
theorem avoidsPassed_optimise_iff (program : Program) (hprogram : program.Unreserved) :
    (∀ block ∈ program.optimise.command.blocks, block.AvoidsPassed) ↔
      ∀ body ∈ program.command.loops, body.AvoidsPassed body.assigned := by
  rw [Program.optimise_command]
  exact (hoists_hoisted program.command).forall_blocks_iff
    (program.command.keepsReserved_of_unreserved hprogram)
    fun _ => Command.Unreserved.not_reserved_of_passed hprogram

/-- In a nest that reads a number into the counter of its inner loop, no constant reads the counter.
-/
theorem avoidsPassed_optimise_iff_mixedNest :
    mixedNest.Unreserved ∧ mixedNest.command.passed = ["d"] ∧
      (∀ body ∈ mixedNest.command.loops, body.AvoidsPassed body.assigned) ∧
      ∀ block ∈ mixedNest.optimise.command.blocks, block.AvoidsPassed :=
  ⟨by decide, by decide, by decide,
    (avoidsPassed_optimise_iff mixedNest (by decide)).mpr (by decide)⟩

open Sketch

/-- `while c do begin getint(var a); b := a end`. -/
def echoLoop : Program := ⟨loop (var "c") [callVar "getint" "a", assign "b" (var "a")], .dummy⟩

/-- The number that the loop reads in every round is taken for one that never changes. -/
theorem echoLoop_optimise_freezes_passed :
    echoLoop.Unreserved ∧
      ∃ block ∈ echoLoop.optimise.command.blocks, ∃ constant ∈ block.constants,
        "a" ∈ constant.value.free ∧ "a" ∈ block.body.passed := by
  refine ⟨by decide, ?_⟩
  decide +kernel

end LoopHoist
