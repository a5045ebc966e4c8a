import LoopHoist.Proofs.Hoisting.Forecast
import Mathlib.Algebra.Order.BigOperators.Group.List
import Mathlib.Algebra.Order.Group.Nat
import Mathlib.Data.List.Forall2
import Mathlib.Logic.Function.Iterate

/-!
# Repeated runs keep growing

A run of hoisting leaves reads of constants in the bodies of loops.  Nobody assigns to the names they
read, so the next run finds every such read invariant in every loop around it, and takes it out of
all of them once more.  A program with anything to hoist never stops changing.

`hoist_optimise_iterate` says how fast it grows.  From the second run on, each run hoists as many
constants as there are pairs of an assignment that some loop takes and a loop around it.  The first
run hoists fewer where an outer loop assigns what the value reads and only an inner loop takes it.

## Strategy

`Command.assignments` lists the assignments of a command, each with the sets of variables that the
loops around it assign.  `Command.Replaces` compares two such lists: the assignments that satisfy a
condition read constants, all others are as before.  Extraction replaces what is invariant for its
loop, a whole run replaces what some loop takes (`Hoists.replaces`), and one composition lemma
(`Command.Replaces.comp`) says that a further run replaces nothing new.

The same comparison is made for the bodies of all loops (`Hoists.forall₂_loops_replaces`).  It fixes
how many values each loop takes in every later run (`map_length_taken_optimise_iterate`), and so the
numbers of those runs.
-/

namespace LoopHoist

/-! ## Assignments and the loops around them -/

/-- An assignment: its value, and the variables that each loop around it assigns, from the outermost
loop inwards. -/
@[ext]
structure Assignment where
  value : Expression
  loops : List (List String)

namespace Assignment

/-- The assignment seen from outside of a loop that assigns the given variables. -/
def inside (assigned : List String) (assignment : Assignment) : Assignment :=
  ⟨assignment.value, assigned :: assignment.loops⟩

/-- How many of the loops around the assignment take its value. -/
def takers (assignment : Assignment) : Nat :=
  assignment.loops.countP fun assigned => assignment.value.isInvariant assigned

/-- Whether some loop around the assignment takes its value. -/
def isTaken (assignment : Assignment) : Bool :=
  assignment.loops.any fun assigned => assignment.value.isInvariant assigned

@[simp] theorem isTaken_inside (assigned : List String) (assignment : Assignment) :
    (assignment.inside assigned).isTaken =
      (assignment.value.isInvariant assigned || assignment.isTaken) := rfl

end Assignment

namespace Command

/-- The assignments of a command, in order, each with the loops of the command around it. -/
def assignments : Command → List Assignment
  | .assign _ value _ => [⟨value, []⟩]
  | .call .. | .skip _ => []
  | .ifThenElse _ thenBranch elseBranch _ => thenBranch.assignments ++ elseBranch.assignments
  | .letIn _ body _ => body.assignments
  | .seq first second _ => first.assignments ++ second.assignments
  | .whileDo _ body _ => body.assignments.map (Assignment.inside body.assigned)

theorem map_value_assignments :
    ∀ command : Command, command.assignments.map Assignment.value = command.values
  | .assign .. | .call .. | .skip _ => rfl
  | .ifThenElse _ first second _ | .seq first second _ => by
      rw [assignments, values, List.map_append, first.map_value_assignments,
        second.map_value_assignments]
  | .letIn _ body _ => body.map_value_assignments
  | .whileDo _ body _ => by
      rw [assignments, values, List.map_map, ← body.map_value_assignments]
      rfl

theorem length_taken (body : Command) : body.taken.length =
    body.assignments.countP fun assignment => assignment.value.isInvariant body.assigned := by
  rw [taken, ← List.countP_eq_length_filter, ← body.map_value_assignments, List.countP_map]
  rfl

theorem assigned_subset_of_mem_loops :
    ∀ (command : Command) {body : Command}, body ∈ command.loops →
      body.assigned ⊆ command.assigned
  | .assign .., _, hmem | .call .., _, hmem | .skip _, _, hmem => by simp [loops] at hmem
  | .ifThenElse _ first second _, _, hmem | .seq first second _, _, hmem => by
      rw [assigned]
      rcases List.mem_append.mp hmem with hfirst | hsecond
      · exact List.subset_append_of_subset_left _ (first.assigned_subset_of_mem_loops hfirst)
      · exact List.subset_append_of_subset_right _ (second.assigned_subset_of_mem_loops hsecond)
  | .letIn _ inner _, _, hmem => inner.assigned_subset_of_mem_loops hmem
  | .whileDo _ inner _, _, hmem => by
      rcases List.mem_cons.mp hmem with rfl | hinside
      · exact List.Subset.refl _
      · exact inner.assigned_subset_of_mem_loops hinside

/-- What the loops around an assignment assign, the whole command assigns. -/
theorem subset_assigned_of_mem_assignments {assignment : Assignment} {inner : List String} :
    ∀ command : Command, assignment ∈ command.assignments → inner ∈ assignment.loops →
      inner ⊆ command.assigned
  | .assign .., hmem, hinner => by
      obtain rfl := List.mem_singleton.mp hmem
      simp at hinner
  | .call .., hmem, _ | .skip _, hmem, _ => by simp [assignments] at hmem
  | .ifThenElse _ first second _, hmem, hinner | .seq first second _, hmem, hinner => by
      rw [assigned]
      rcases List.mem_append.mp hmem with hfirst | hsecond
      · exact List.subset_append_of_subset_left _
          (first.subset_assigned_of_mem_assignments hfirst hinner)
      · exact List.subset_append_of_subset_right _
          (second.subset_assigned_of_mem_assignments hsecond hinner)
  | .letIn _ body _, hmem, hinner => body.subset_assigned_of_mem_assignments hmem hinner
  | .whileDo _ body _, hmem, hinner => by
      obtain ⟨original, horiginal, rfl⟩ := List.mem_map.mp hmem
      rcases List.mem_cons.mp hinner with rfl | hinside
      · exact List.Subset.refl _
      · exact body.subset_assigned_of_mem_assignments horiginal hinside

/-- Whether a loop with this body, or a loop inside it, takes the value of an assignment in the
body. -/
def takes (body : Command) (assignment : Assignment) : Bool :=
  (assignment.inside body.assigned).isTaken

end Command

/-! ## Reads of constants in the place of values -/

/-- The second assignment is the first one, with the read of a constant in the place of its value if
it is to be replaced. -/
def Assignment.Replaces (replaced : Assignment → Bool) (before after : Assignment) : Prop :=
  after.loops = before.loops ∧
    if replaced before then ∃ n, after.value = readOf n else after.value = before.value

/-- The second command has the assignments of the first one, with reads of constants in the places of
the values that are to be replaced. -/
structure Command.Replaces (replaced : Assignment → Bool) (before after : Command) : Prop where
  assigned : after.assigned = before.assigned
  assignments : List.Forall₂ (Assignment.Replaces replaced) before.assignments after.assignments

theorem forall₂_comp {α β γ : Type} {R : α → β → Prop} {S : β → γ → Prop} {T : α → γ → Prop} :
    ∀ {as : List α} {bs : List β} {cs : List γ},
      (∀ a ∈ as, ∀ b c, R a b → S b c → T a c) → List.Forall₂ R as bs → List.Forall₂ S bs cs →
        List.Forall₂ T as cs
  | [], [], [], _, .nil, .nil => .nil
  | a :: as, b :: bs, c :: cs, hcomp, .cons hfirst hrest, .cons hfirst' hrest' => by
      rw [List.forall_mem_cons] at hcomp
      exact .cons (hcomp.1 b c hfirst hfirst') (forall₂_comp hcomp.2 hrest hrest')

theorem map_eq_of_forall₂ {α β γ : Type} {R : α → β → Prop} {f : α → γ} {g : β → γ} :
    ∀ {as : List α} {bs : List β}, List.Forall₂ R as bs → (∀ a ∈ as, ∀ b, R a b → g b = f a) →
      bs.map g = as.map f
  | [], [], .nil, _ => rfl
  | a :: as, b :: bs, .cons hfirst hrest, heq => by
      rw [List.forall_mem_cons] at heq
      rw [List.map_cons, List.map_cons, heq.1 b hfirst, map_eq_of_forall₂ hrest heq.2]

/-- Replacing again replaces what one of the two replaces.  A value that the first one left is seen
by the second one as it was. -/
theorem Assignment.Replaces.comp {first second both : Assignment → Bool}
    {before middle after : Assignment} (hfirst : Assignment.Replaces first before middle)
    (hsecond : Assignment.Replaces second middle after)
    (hboth : both before = (first before || second before)) :
    Assignment.Replaces both before after := by
  obtain ⟨hloops, hvalue⟩ := hfirst
  obtain ⟨hloops', hvalue'⟩ := hsecond
  refine ⟨hloops'.trans hloops, ?_⟩
  rw [hboth]
  cases hcase : first before with
  | true =>
      -- the read that the first one put there stays or is replaced by another one
      rw [hcase, if_pos rfl] at hvalue
      rw [Bool.true_or, if_pos rfl]
      split at hvalue'
      · exact hvalue'
      · rwa [hvalue']
  | false =>
      rw [hcase, if_neg Bool.false_ne_true] at hvalue
      obtain rfl : middle = before := Assignment.ext hvalue hloops
      rwa [Bool.false_or]

theorem Command.Replaces.comp {first second both : Assignment → Bool}
    {before middle after : Command} (hfirst : before.Replaces first middle)
    (hsecond : middle.Replaces second after)
    (hboth : ∀ assignment ∈ before.assignments,
      both assignment = (first assignment || second assignment)) :
    before.Replaces both after where
  assigned := hsecond.assigned.trans hfirst.assigned
  assignments := forall₂_comp (fun assignment hmem _ _ hleft hright =>
    hleft.comp hright (hboth assignment hmem)) hfirst.assignments hsecond.assignments

/-- What a loop and the loops inside it take is replaced once for all: if a part of it was replaced
before, the rest still is. -/
theorem Command.Replaces.takes {replaced : Assignment → Bool} {before middle after : Command}
    (hfirst : before.Replaces replaced middle) (hsecond : middle.Replaces middle.takes after)
    (hpart : ∀ assignment ∈ before.assignments,
      replaced assignment = true → before.takes assignment = true) :
    before.Replaces before.takes after := by
  have htakes : middle.takes = before.takes := by
    funext assignment
    rw [Command.takes, hfirst.assigned, Command.takes]
  rw [htakes] at hsecond
  refine hfirst.comp hsecond fun assignment hmem => ?_
  cases hcase : replaced assignment with
  | true => rw [hpart assignment hmem hcase, Bool.true_or]
  | false => rw [Bool.false_or]

/-- What is replaced in the body of a loop is replaced in the loop. -/
theorem Command.Replaces.inside {replaced outside : Assignment → Bool} {before after : Command}
    (hreplaces : before.Replaces replaced after)
    (houtside : ∀ assignment : Assignment,
      outside (assignment.inside before.assigned) = replaced assignment) :
    List.Forall₂ (Assignment.Replaces outside)
      (before.assignments.map (Assignment.inside before.assigned))
      (after.assignments.map (Assignment.inside after.assigned)) := by
  rw [List.forall₂_map_left_iff, List.forall₂_map_right_iff, hreplaces.assigned]
  refine hreplaces.assignments.imp fun assignment assignment' hassignment => ?_
  refine ⟨congrArg (before.assigned :: ·) hassignment.1, ?_⟩
  rw [houtside]
  exact hassignment.2

/-! ## What one run replaces -/

namespace Extracts

variable {outer : List String} {issued : Nat} {command command' : Command}
  {constants : List Constant}

/-- An extraction replaces the values that are invariant for its loop. -/
theorem replaces (hextract : Extracts outer issued command command' constants) :
    command.Replaces (fun assignment => assignment.value.isInvariant outer) command' := by
  refine ⟨hextract.assigned_eq, ?_⟩
  induction hextract with
  | @taken issued _ _ _ _ hvalue =>
      refine .cons ⟨rfl, ?_⟩ .nil
      rw [if_pos hvalue]
      exact ⟨issued + 1, rfl⟩
  | left hvalue =>
      refine .cons ⟨rfl, ?_⟩ .nil
      simp only [hvalue, Bool.false_eq_true, if_false]
  | call | skip => exact .nil
  | ifThenElse _ _ ihFirst ihSecond | seq _ _ ihFirst ihSecond =>
      exact List.rel_append ihFirst ihSecond
  | letIn _ ih => exact ih
  | whileDo hbody ih => exact Command.Replaces.inside ⟨hbody.assigned_eq, ih⟩ fun _ => rfl

/-- It does so in the bodies of all loops. -/
theorem forall₂_loops_replaces (hextract : Extracts outer issued command command' constants) :
    List.Forall₂ (Command.Replaces fun assignment => assignment.value.isInvariant outer)
      command.loops command'.loops := by
  induction hextract with
  | taken | left | call | skip => exact .nil
  | ifThenElse _ _ ihFirst ihSecond | seq _ _ ihFirst ihSecond =>
      exact List.rel_append ihFirst ihSecond
  | letIn _ ih => exact ih
  | whileDo hbody ih => exact .cons hbody.replaces ih

/-- The extraction of a loop and the run on what is left replace together what the loop and the loops
inside it take. -/
theorem replaces_takes {body middle body' : Command}
    (hextract : Extracts body.assigned 0 body middle constants)
    (hmiddle : middle.Replaces Assignment.isTaken body') : body.Replaces body.takes body' :=
  hextract.replaces.comp hmiddle fun _ _ => rfl

end Extracts

namespace Hoists

variable {command command' : Command}

/-- A run replaces the values that some loop takes, and no other. -/
theorem replaces (hhoists : Hoists command command') :
    command.Replaces Assignment.isTaken command' := by
  refine ⟨hhoists.assigned_eq, ?_⟩
  induction hhoists with
  | assign => exact .cons ⟨rfl, rfl⟩ .nil
  | call | skip => exact .nil
  | ifThenElse _ _ ihFirst ihSecond | seq _ _ ihFirst ihSecond =>
      exact List.rel_append ihFirst ihSecond
  | letIn _ ih => exact ih
  | kept hextract hbody ih | wrapped hextract _ hbody ih =>
      exact (hextract.replaces_takes ⟨hbody.assigned_eq, ih⟩).inside fun _ => rfl

/-- In the body of each loop it replaces what that loop or a loop inside it takes. -/
theorem forall₂_loops_replaces (hhoists : Hoists command command') :
    List.Forall₂ (fun body body' => body.Replaces body.takes body') command.loops command'.loops := by
  induction hhoists with
  | assign | call | skip => exact .nil
  | ifThenElse _ _ ihFirst ihSecond | seq _ _ ihFirst ihSecond =>
      exact List.rel_append ihFirst ihSecond
  | letIn _ ih => exact ih
  | @kept _ body _ _ _ _ hextract hbody ih | @wrapped _ body _ _ _ _ _ _ _ hextract _ hbody ih =>
      refine .cons (hextract.replaces_takes hbody.replaces) ?_
      refine forall₂_comp (fun inner hmem middle after hfirst hsecond => ?_)
        hextract.forall₂_loops_replaces ih
      -- what the outer loop has taken out of the inner one, the inner one takes too
      refine hfirst.takes hsecond fun assignment _ hinvariant => ?_
      have hsub := body.assigned_subset_of_mem_loops hmem
      rw [Command.takes, Assignment.isTaken_inside, Expression.isInvariant_mono hsub hinvariant,
        Bool.true_or]

end Hoists

/-! ## What further runs replace -/

theorem assigned_optimise_iterate (program : Program) (runs : Nat) :
    (Program.optimise^[runs] program).command.assigned = program.command.assigned := by
  induction runs with
  | zero => rfl
  | succ runs ih => rw [Function.iterate_succ_apply', (hoists_optimise _).assigned_eq, ih]

/-- After any number of runs, if there was one, the same assignments are replaced: what a further run
replaces was the read of a constant before. -/
theorem forall₂_loops_optimise_iterate (program : Program) (runs : Nat) :
    List.Forall₂ (fun body body' => body.Replaces body.takes body') program.command.loops
      (Program.optimise^[runs + 1] program).command.loops := by
  induction runs with
  | zero => exact (hoists_optimise program).forall₂_loops_replaces
  | succ runs ih =>
      rw [Function.iterate_succ_apply']
      refine forall₂_comp (fun body _ middle after hfirst hsecond => ?_) ih
        (hoists_optimise _).forall₂_loops_replaces
      exact hfirst.takes hsecond fun _ _ => id

/-! ## How many values each loop takes from the second run on -/

/-- How many assignments in the body of a loop are taken by the loop or by a loop inside it. -/
def Command.takenWithin (body : Command) : Nat := body.assignments.countP body.takes

theorem Command.length_taken_le_takenWithin (body : Command) :
    body.taken.length ≤ body.takenWithin := by
  rw [body.length_taken]
  refine List.countP_mono_left fun assignment _ hinvariant => ?_
  rw [Command.takes, Assignment.isTaken_inside, hinvariant, Bool.true_or]

/-- Where the read of a constant stands in the place of a value, a loop takes it, and of the values
that were left it takes none. -/
theorem Assignment.Replaces.isInvariant_eq {body : Command} {before after : Assignment}
    (hreplaces : Assignment.Replaces body.takes before after)
    (hassigned : ∀ n, hoistedName n ∉ body.assigned) :
    after.value.isInvariant body.assigned = body.takes before := by
  obtain ⟨-, hvalue⟩ := hreplaces
  cases htakes : body.takes before with
  | true =>
      rw [htakes, if_pos rfl] at hvalue
      obtain ⟨n, hread⟩ := hvalue
      rw [hread, isInvariant_readOf (hassigned n)]
  | false =>
      -- neither this loop nor one inside takes the value, so it is as it was
      rw [htakes, if_neg Bool.false_ne_true] at hvalue
      rw [Command.takes, Assignment.isTaken_inside, Bool.or_eq_false_iff] at htakes
      rw [hvalue, htakes.1]

theorem Command.Replaces.length_taken {before after : Command}
    (hreplaces : before.Replaces before.takes after)
    (hassigned : ∀ n, hoistedName n ∉ before.assigned) :
    after.taken.length = before.takenWithin := by
  -- assignment by assignment, being taken now is having been taken at all
  have hmap : (after.assignments.map fun assignment =>
      assignment.value.isInvariant before.assigned) = before.assignments.map before.takes :=
    map_eq_of_forall₂ hreplaces.assignments fun _ _ _ hassignment =>
      hassignment.isInvariant_eq hassigned
  calc after.taken.length
      = (after.assignments.map fun assignment =>
          assignment.value.isInvariant before.assigned).countP id := by
        rw [after.length_taken, hreplaces.assigned, List.countP_map]
        rfl
    _ = (before.assignments.map before.takes).countP id := by rw [hmap]
    _ = before.takenWithin := by
        rw [List.countP_map]
        rfl

theorem map_length_taken_optimise_iterate {program : Program}
    (hassigned : ∀ n, hoistedName n ∉ program.command.assigned) (runs : Nat) :
    (Program.optimise^[runs + 1] program).command.loops.map (fun body => body.taken.length) =
      program.command.loops.map Command.takenWithin := by
  refine map_eq_of_forall₂ (forall₂_loops_optimise_iterate program runs)
    fun body hmem body' hreplaces => ?_
  refine hreplaces.length_taken fun n hname => ?_
  exact hassigned n (program.command.assigned_subset_of_mem_loops hmem hname)

/-! ## Assignments and loops counted in pairs -/

theorem Assignment.sum_takers_inside (assigned : List String) (assignments : List Assignment) :
    ((assignments.map (Assignment.inside assigned)).map Assignment.takers).sum =
      assignments.countP (fun assignment => assignment.value.isInvariant assigned) +
        (assignments.map Assignment.takers).sum := by
  induction assignments with
  | nil => rfl
  | cons first rest ih =>
      have hfirst : (first.inside assigned).takers =
          first.takers + if first.value.isInvariant assigned then 1 else 0 :=
        List.countP_cons
      simp only [List.map_cons, List.sum_cons, List.countP_cons, hfirst, ih]
      omega

/-- What the loops of a command take, counted by assignments. -/
theorem Command.sum_length_taken : ∀ command : Command,
    (command.loops.map fun body => body.taken.length).sum =
      (command.assignments.map Assignment.takers).sum
  | .assign .. | .call .. | .skip _ => rfl
  | .ifThenElse _ first second _ | .seq first second _ => by
      rw [Command.loops, Command.assignments, List.map_append, List.sum_append,
        first.sum_length_taken, second.sum_length_taken, List.map_append, List.sum_append]
  | .letIn _ body _ => body.sum_length_taken
  | .whileDo _ body _ => by
      rw [Command.loops, List.map_cons, List.sum_cons, body.sum_length_taken, body.length_taken,
        Command.assignments, Assignment.sum_takers_inside]

/-- The number of loops around each assignment that some loop takes, summed up. -/
def Command.takenDepth (command : Command) : Nat :=
  ((command.assignments.filter Assignment.isTaken).map fun assignment =>
    assignment.loops.length).sum

/-- An assignment that an outer loop takes and no inner one has no inner loop around it: that loop
would take it as well. -/
theorem Assignment.loops_eq_nil {assigned : List String} {assignment : Assignment}
    (hloops : ∀ inner ∈ assignment.loops, inner ⊆ assigned)
    (hinvariant : assignment.value.isInvariant assigned = true)
    (hleft : assignment.isTaken = false) : assignment.loops = [] := by
  rw [List.eq_nil_iff_forall_not_mem]
  intro inner hmem
  have hinner := Expression.isInvariant_mono (hloops inner hmem) hinvariant
  exact List.any_eq_false.mp hleft inner hmem hinner

/-- A loop adds one to the depth of everything that it and the loops inside it take. -/
theorem Assignment.sum_length_inside {assigned : List String} {assignments : List Assignment}
    (hloops : ∀ assignment ∈ assignments, ∀ inner ∈ assignment.loops, inner ⊆ assigned) :
    (((assignments.map (Assignment.inside assigned)).filter Assignment.isTaken).map
        fun assignment => assignment.loops.length).sum =
      assignments.countP (fun assignment => (assignment.inside assigned).isTaken) +
        ((assignments.filter Assignment.isTaken).map fun assignment =>
          assignment.loops.length).sum := by
  induction assignments with
  | nil => rfl
  | cons first rest ih =>
      rw [List.forall_mem_cons] at hloops
      have ih := ih hloops.2
      have hlength : (first.inside assigned).loops.length = first.loops.length + 1 := rfl
      have htaken := first.isTaken_inside assigned
      simp only [List.map_cons, List.filter_cons, List.countP_cons]
      cases hinner : first.isTaken with
      | true =>
          rw [hinner, Bool.or_true] at htaken
          simp only [htaken, if_true, List.map_cons, List.sum_cons, hlength, ih]
          omega
      | false =>
          rw [hinner, Bool.or_false] at htaken
          cases hinvariant : first.value.isInvariant assigned with
          | true =>
              -- the new loop is the first to take the value, so it is the only one around it
              have hnone := Assignment.loops_eq_nil hloops.1 hinvariant hinner
              rw [hinvariant] at htaken
              simp only [htaken, Bool.false_eq_true, if_true, if_false, List.map_cons,
                List.sum_cons, hlength, hnone, List.length_nil, ih]
              omega
          | false =>
              rw [hinvariant] at htaken
              simp only [htaken, Bool.false_eq_true, if_false, ih, Nat.add_zero]

theorem Command.sum_takenWithin :
    ∀ command : Command, (command.loops.map Command.takenWithin).sum = command.takenDepth
  | .assign .. | .call .. | .skip _ => rfl
  | .ifThenElse _ first second _ | .seq first second _ => by
      rw [Command.loops, List.map_append, List.sum_append, first.sum_takenWithin,
        second.sum_takenWithin, Command.takenDepth, Command.takenDepth, Command.takenDepth,
        Command.assignments, List.filter_append, List.map_append, List.sum_append]
  | .letIn _ body _ => body.sum_takenWithin
  | .whileDo _ body _ => by
      have hloops : ∀ assignment ∈ body.assignments, ∀ inner ∈ assignment.loops,
          inner ⊆ body.assigned := fun assignment hmem inner =>
        body.subset_assigned_of_mem_assignments hmem
      rw [Command.loops, List.map_cons, List.sum_cons, body.sum_takenWithin, Command.takenDepth,
        Command.takenDepth, Command.assignments, Assignment.sum_length_inside hloops]
      rfl

/-! ## The numbers of repeated runs -/

theorem stats_hoist_optimise_iterate {program : Program}
    (hassigned : ∀ n, hoistedName n ∉ program.command.assigned) (runs : Nat) :
    (Program.optimise^[runs + 1] program).hoist.stats.loopsRewritten =
        (program.command.loops.map Command.takenWithin).countP (0 < ·) ∧
      (Program.optimise^[runs + 1] program).hoist.stats.constantsHoisted =
        program.command.takenDepth := by
  rw [← assigned_optimise_iterate program (runs + 1)] at hassigned
  obtain ⟨hloops, hvalues⟩ := (reports_hoist _).stats_eq hassigned
  rw [assigned_optimise_iterate] at hassigned
  rw [map_length_taken_optimise_iterate hassigned] at hloops hvalues
  rw [program.command.sum_takenWithin] at hvalues
  exact ⟨hloops, hvalues⟩

/-- The first run counts no more than the later ones. -/
theorem stats_hoist_le {program : Program}
    (hassigned : ∀ n, hoistedName n ∉ program.command.assigned) :
    program.hoist.stats.loopsRewritten ≤
        (program.command.loops.map Command.takenWithin).countP (0 < ·) ∧
      program.hoist.stats.constantsHoisted ≤ program.command.takenDepth := by
  obtain ⟨hloops, hvalues⟩ := (reports_hoist program.command).stats_eq hassigned
  rw [Program.stats_hoist, hloops, hvalues, ← program.command.sum_takenWithin, List.countP_map,
    List.countP_map]
  constructor
  · -- a loop that takes a value in the first run takes one in every later run
    refine List.countP_mono_left fun body _ hpos => ?_
    have hle := body.length_taken_le_takenWithin
    simp only [Function.comp_apply, decide_eq_true_eq] at hpos ⊢
    omega
  · exact List.sum_le_sum fun body _ => body.length_taken_le_takenWithin

/-- **Repeated runs never come to rest, and grow steadily.**  Suppose nobody assigns to a name `$h`
followed by a number.  The first run replaces the values of exactly those assignments that some loop
around them takes, and hoists each of them once for every loop that takes it.  If it changes nothing,
no run does.  Otherwise every run changes the program, and every run after the first hoists each of
those assignments once for every loop around it, all counted in the program as written, which is at
least what the first run hoists; and it rewrites the same number of loops, which is at least the
number that the first run rewrites. -/
theorem hoist_optimise_iterate (program : Program)
    (hassigned : ∀ n, hoistedName n ∉ program.command.assigned) :
    (program.command.Replaces Assignment.isTaken program.optimise.command ∧
      program.hoist.stats.constantsHoisted =
        (program.command.assignments.map Assignment.takers).sum) ∧
    (program.hoist.isUnchanged = true → ∀ runs,
      (Program.optimise^[runs] program).hoist.isUnchanged = true ∧
        Program.optimise^[runs] program = program) ∧
    (program.hoist.isUnchanged = false →
      (∀ runs, (Program.optimise^[runs] program).hoist.isUnchanged = false ∧
        Program.optimise^[runs + 1] program ≠ Program.optimise^[runs] program) ∧
      (∀ runs, (Program.optimise^[runs + 1] program).hoist.stats.constantsHoisted =
        ((program.command.assignments.filter Assignment.isTaken).map fun assignment =>
          assignment.loops.length).sum) ∧
      program.hoist.stats.constantsHoisted ≤
        ((program.command.assignments.filter Assignment.isTaken).map fun assignment =>
          assignment.loops.length).sum ∧
      (∀ runs, (Program.optimise^[runs + 1] program).hoist.stats.loopsRewritten =
        program.optimise.hoist.stats.loopsRewritten) ∧
      program.hoist.stats.loopsRewritten ≤ program.optimise.hoist.stats.loopsRewritten) := by
  obtain ⟨hloopsLe, hconstantsLe⟩ := stats_hoist_le hassigned
  have hlater := stats_hoist_optimise_iterate hassigned
  have hsecond : program.optimise.hoist.stats.loopsRewritten =
      (program.command.loops.map Command.takenWithin).countP (0 < ·) := (hlater 0).1
  have hfirst : program.hoist.stats.constantsHoisted =
      (program.command.assignments.map Assignment.takers).sum := by
    rw [← program.command.sum_length_taken]
    exact ((reports_hoist program.command).stats_eq hassigned).2
  refine ⟨⟨(hoists_optimise program).replaces, hfirst⟩, ?_, ?_⟩
  · intro hunchanged runs
    have hsame : Program.optimise^[runs] program = program :=
      Function.iterate_fixed (Program.optimise_eq_self hunchanged) runs
    rw [hsame]
    exact ⟨hunchanged, rfl⟩
  · intro hchanged
    have hpos := Program.isUnchanged_hoist_eq_false_iff.mp hchanged
    -- a first run that takes something leaves reads behind, which later runs take
    have hruns : ∀ runs, (Program.optimise^[runs] program).hoist.isUnchanged = false := by
      intro runs
      rw [Program.isUnchanged_hoist_eq_false_iff]
      cases runs with
      | zero => exact hpos
      | succ runs =>
          rw [(hlater runs).2]
          omega
    refine ⟨fun runs => ⟨hruns runs, fun hsame => ?_⟩, fun runs => (hlater runs).2, hconstantsLe,
      fun runs => (hlater runs).1.trans hsecond.symm, hloopsLe.trans_eq hsecond.symm⟩
    rw [Function.iterate_succ_apply', Program.optimise_eq_self_iff, hruns runs] at hsame
    exact Bool.false_ne_true hsame

open Sketch

/-- A nest in which only the inner loop takes anything in the first run:
`while a do begin x := x + 1; while b do y := x end`. -/
def risingNest : Program :=
  ⟨loop (var "a")
    [assign "x" (binary (var "x") "+" (int "1")), loop (var "b") [assign "y" (var "x")]], .dummy⟩

theorem hoist_optimise_iterate_risingNest :
    (∀ n, hoistedName n ∉ risingNest.command.assigned) ∧
      risingNest.hoist.isUnchanged = false ∧ risingNest.hoist.stats = ⟨1, 1⟩ ∧
      ∀ runs, Program.optimise^[runs + 1] risingNest ≠ Program.optimise^[runs] risingNest ∧
        (Program.optimise^[runs + 1] risingNest).hoist.stats.loopsRewritten = 2 ∧
        (Program.optimise^[runs + 1] risingNest).hoist.stats.constantsHoisted = 2 := by
  have hassigned : ∀ n, hoistedName n ∉ risingNest.command.assigned :=
    hoistedName_notMem_of_not_reserved (by decide)
  have hchanged : risingNest.hoist.isUnchanged = false := by decide +kernel
  obtain ⟨-, -, hgrows⟩ := hoist_optimise_iterate risingNest hassigned
  obtain ⟨hruns, hconstants, -, hloops, -⟩ := hgrows hchanged
  refine ⟨hassigned, hchanged, by decide +kernel, fun runs => ⟨(hruns runs).2, ?_, ?_⟩⟩
  · exact (hloops runs).trans (by decide +kernel)
  · exact (hconstants runs).trans (by decide)

end LoopHoist
