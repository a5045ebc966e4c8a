import LoopHoist.Proofs.Hoisting.Inlining

/-!
# Loops in loops

What the second extraction sees.  Hoisting extracts from a body before it goes into the loops of
that body, so an inner loop meets the reads of constants that the loop around it has put in the
place of values.  Whatever is invariant for the outer loop is invariant for the inner one too, so
the inner loop takes all those reads over:

* `Extracts.values_eq`: after an extraction the values of a command are those it had, with the reads
  of constants numbered one after the other in the places of the invariant ones (`afterExtraction`);
* `Extracts.comp`: extracting for the outer and then for the inner loop leaves what extracting for
  the inner loop alone leaves.  Only the constants differ.

The names of both loops start at `$h1`.  `Nested.InStep` is the condition under which the names that
an inner loop reads from outside are still to come in its own chain: before each value that both
loops take, the inner loop has taken no more values of its own than the outer loop had taken before
the inner one began.
-/

namespace LoopHoist

/-! ## The values after an extraction -/

/-- The read of the `n`-th value taken out of a loop. -/
def readOf (n : Nat) : Expression := .read (.simple (.invented (hoistedName n)) .dummy) .dummy

@[simp] theorem isReading_readOf (n : Nat) : (readOf n).isReading = true := by
  simp [readOf, Expression.isReading, Identifier.invented]

/-- The read of a constant is invariant for every loop that does not assign the name. -/
theorem isInvariant_readOf {assigned : List String} {n : Nat} (hname : hoistedName n ∉ assigned) :
    (readOf n).isInvariant assigned = true := by
  refine Expression.isInvariant_iff.mpr ⟨rfl, fun name hmem => ?_⟩
  obtain rfl : name = hoistedName n := by
    simpa [readOf, Expression.free, Vname.free, Identifier.invented] using hmem
  exact hname

theorem Constant.reading_of_name {constant : Constant} {n : Nat}
    (hname : constant.name = hoistedName n) : constant.reading = readOf n := by
  rw [Constant.reading, hname, readOf]

/-- Values after the extraction of those that are invariant for a loop assigning `outer`, where
`taken` names have been given out before. -/
def afterExtraction (outer : List String) : Nat → List Expression → List Expression
  | _, [] => []
  | taken, value :: rest =>
      if value.isInvariant outer then readOf (taken + 1) :: afterExtraction outer (taken + 1) rest
      else value :: afterExtraction outer taken rest

theorem afterExtraction_append (outer : List String) (first second : List Expression) :
    ∀ taken, afterExtraction outer taken (first ++ second) = afterExtraction outer taken first ++
      afterExtraction outer (taken + first.countP (·.isInvariant outer)) second := by
  induction first with
  | nil => intro taken; simp [afterExtraction]
  | cons value rest ih =>
      intro taken
      by_cases hvalue : value.isInvariant outer = true
      · simp only [List.cons_append, afterExtraction, hvalue, if_true, ih, List.countP_cons_of_pos]
        congr 3
        omega
      · simp [afterExtraction, hvalue, ih]

/-- The value at a position, read off the position and the number of values taken before it. -/
theorem getElem?_afterExtraction (outer : List String) {values : List Expression} :
    ∀ (taken : Nat) {i : Nat} {value : Expression}, values[i]? = some value →
      (afterExtraction outer taken values)[i]? = some (if value.isInvariant outer then
        readOf (taken + (values.take i).countP (·.isInvariant outer) + 1) else value) := by
  induction values with
  | nil => intro taken i value hvalue; simp at hvalue
  | cons first rest ih =>
      intro taken i value hvalue
      cases i with
      | zero =>
          obtain rfl : first = value := by simpa using hvalue
          by_cases hfirst : first.isInvariant outer = true <;> simp [afterExtraction, hfirst]
      | succ i =>
          rw [List.getElem?_cons_succ] at hvalue
          by_cases hfirst : first.isInvariant outer = true
          · simp only [afterExtraction, hfirst, if_true, List.getElem?_cons_succ,
              List.take_succ_cons, List.countP_cons_of_pos, ih _ hvalue]
            congr 4
            omega
          · simp [afterExtraction, hfirst, ih _ hvalue]

@[simp] theorem length_afterExtraction (outer : List String) (values : List Expression) :
    ∀ taken, (afterExtraction outer taken values).length = values.length := by
  induction values with
  | nil => intro taken; rfl
  | cons value rest ih =>
      intro taken
      unfold afterExtraction
      split <;> simp [ih]

theorem Expression.isInvariant_mono {value : Expression} {inner outer : List String}
    (hsub : inner ⊆ outer) (hvalue : value.isInvariant outer = true) :
    value.isInvariant inner = true := by
  obtain ⟨hpure, hfree⟩ := Expression.isInvariant_iff.mp hvalue
  exact Expression.isInvariant_iff.mpr ⟨hpure, fun name hname hmem => hfree name hname (hsub hmem)⟩

/-- An inner loop takes every read that the extraction of an outer loop has left, and of the other
values those that it would have taken anyway. -/
theorem filter_afterExtraction {inner outer : List String} (hsub : inner ⊆ outer)
    (hinner : ∀ n, hoistedName n ∉ inner) (values : List Expression) :
    ∀ taken, (afterExtraction outer taken values).filter (·.isInvariant inner) =
      afterExtraction outer taken (values.filter (·.isInvariant inner)) := by
  induction values with
  | nil => intro taken; rfl
  | cons value rest ih =>
      intro taken
      by_cases hvalue : value.isInvariant outer = true
      · -- the read that stands for the value is invariant for the inner loop as well
        have hread := isInvariant_readOf (hinner (taken + 1))
        have hvalue' := Expression.isInvariant_mono hsub hvalue
        simp [afterExtraction, hvalue, hvalue', hread, ih]
      · by_cases hvalue' : value.isInvariant inner = true <;>
          simp [afterExtraction, hvalue, hvalue', ih]

namespace Extracts

variable {assigned inner outer : List String} {issued taken : Nat}
  {source command command' : Command} {constants constants' : List Constant}

theorem length_constants (hextract : Extracts assigned issued command command' constants) :
    constants.length = command.values.countP (·.isInvariant assigned) := by
  rw [hextract.constants_eq, length_numbered, List.countP_eq_length_filter]

theorem values_eq (hextract : Extracts assigned issued command command' constants) :
    command'.values = afterExtraction assigned issued command.values := by
  induction hextract with
  | taken hvalue => simp [Command.values, afterExtraction, hvalue, Constant.reading, readOf]
  | left hvalue => simp [Command.values, afterExtraction, hvalue]
  | call | skip => rfl
  | ifThenElse hfirst _ ihFirst ihSecond | seq hfirst _ ihFirst ihSecond =>
      -- the second part counts on from the values that the first one had taken
      rw [Command.values, Command.values, ihFirst, ihSecond, afterExtraction_append,
        hfirst.length_constants]
  | letIn _ ih | whileDo _ ih => exact ih

/-- Extracting for an outer and then for an inner loop leaves what extracting for the inner loop
leaves. -/
theorem comp (houter : Extracts outer taken source command constants)
    (hinner : Extracts inner issued command command' constants') (hsub : inner ⊆ outer)
    (hreserved : ∀ name ∈ inner, ¬ Reserved name) :
    ∃ direct, Extracts inner issued source command' direct ∧ direct.length = constants'.length := by
  induction houter generalizing issued command' constants' with
  | taken hvalue =>
      cases hinner with
      | taken => exact ⟨_, .taken (Expression.isInvariant_mono hsub hvalue), rfl⟩
      | left hread =>
          -- the read of a constant is invariant for the inner loop, so it cannot have been left
          rw [Constant.reading_of_name rfl,
            isInvariant_of_isReading hreserved (isReading_readOf _)] at hread
          contradiction
  | left _ =>
      cases hinner with
      | taken hvalue => exact ⟨_, .taken hvalue, rfl⟩
      | left hvalue => exact ⟨_, .left hvalue, rfl⟩
  | call => cases hinner; exact ⟨_, .call, rfl⟩
  | skip => cases hinner; exact ⟨_, .skip, rfl⟩
  | ifThenElse _ _ ihThen ihElse =>
      cases hinner with
      | ifThenElse hthen helse =>
          obtain ⟨inThen, hthen', hlength⟩ := ihThen hthen
          obtain ⟨inElse, helse', hlength'⟩ := ihElse helse
          rw [← hlength] at helse'
          exact ⟨_, .ifThenElse hthen' helse', by simp [hlength, hlength']⟩
  | letIn _ ih =>
      cases hinner with
      | letIn hbody =>
          obtain ⟨direct, hbody', hlength⟩ := ih hbody
          exact ⟨_, .letIn hbody', hlength⟩
  | seq _ _ ihFirst ihSecond =>
      cases hinner with
      | seq hfirst hsecond =>
          obtain ⟨inFirst, hfirst', hlength⟩ := ihFirst hfirst
          obtain ⟨inSecond, hsecond', hlength'⟩ := ihSecond hsecond
          rw [← hlength] at hsecond'
          exact ⟨_, .seq hfirst' hsecond', by simp [hlength, hlength']⟩
  | whileDo _ ih =>
      cases hinner with
      | whileDo hbody =>
          obtain ⟨direct, hbody', hlength⟩ := ih hbody
          exact ⟨_, .whileDo hbody', hlength⟩

end Extracts

/-- The constants of a loop that takes the given values, after a loop around it that assigns `outer`
and took `taken` values before has extracted its own. -/
def innerConstants (outer : List String) (taken : Nat) (values : List Expression) : List Constant :=
  numbered 0 (afterExtraction outer taken values)

/-! ## Loops directly inside a loop -/

/-- A loop inside another: how many values the outer loop takes before the inner one begins, and the
body of the inner loop. -/
structure Nested where
  taken : Nat
  body : Command

/-- The values that a loop with the given body takes. -/
def Command.taken (body : Command) : List Expression :=
  body.values.filter (·.isInvariant body.assigned)

theorem Command.taken_bare (body : Command) : body.bare.taken = body.taken := by
  unfold Command.taken
  rw [body.values_bare, body.assigned_bare]

/-- The values of the constants of a loop are the values that the loop takes. -/
theorem Extracts.forall_constants_iff {body middle : Command} {constants : List Constant}
    (hextract : Extracts body.assigned 0 body middle constants) (holds : Expression → Prop) :
    (∀ constant ∈ constants, holds constant.value) ↔ ∀ value ∈ body.taken, holds value := by
  have hvalues : constants.map Constant.value = body.taken := by
    rw [hextract.constants_eq, map_value_numbered, Command.taken]
  rw [← List.forall_mem_map, hvalues]

/-- The bodies of the loops in a command, at any depth. -/
def Command.loops : Command → List Command
  | .assign .. | .call .. | .skip _ => []
  | .ifThenElse _ thenBranch elseBranch _ => thenBranch.loops ++ elseBranch.loops
  | .letIn _ body _ => body.loops
  | .seq first second _ => first.loops ++ second.loops
  | .whileDo _ body _ => body :: body.loops

theorem Command.loops_bare :
    ∀ command : Command, command.bare.loops = command.loops.map Command.bare
  | .assign .. | .call .. | .skip _ => rfl
  | .ifThenElse _ first second _ | .seq first second _ => by
      simp only [Command.bare, Command.loops, first.loops_bare, second.loops_bare, List.map_append]
  | .letIn _ body _ | .whileDo _ body _ => by
      simp only [Command.bare, Command.loops, body.loops_bare, List.map_cons]

/-- No loop of a command stands in another one. -/
def Command.Flat (command : Command) : Prop := ∀ body ∈ command.loops, body.loops = []

instance (command : Command) : Decidable command.Flat :=
  inferInstanceAs (Decidable (∀ body ∈ command.loops, body.loops = []))

theorem Extracts.loops_eq_nil {assigned : List String} {issued : Nat}
    {command command' : Command} {constants : List Constant}
    (hextract : Extracts assigned issued command command' constants)
    (hloops : command.loops = []) : command'.loops = [] := by
  induction hextract with
  | taken | left | call | skip => rfl
  | ifThenElse _ _ ihFirst ihSecond | seq _ _ ihFirst ihSecond =>
      rw [Command.loops, List.append_eq_nil_iff] at hloops ⊢
      exact ⟨ihFirst hloops.1, ihSecond hloops.2⟩
  | letIn _ ih => exact ih hloops
  | whileDo => simp [Command.loops] at hloops

/-- Where there is no loop, hoisting changes nothing. -/
theorem Hoists.bare_eq_of_loops_eq_nil {command command' : Command}
    (hhoists : Hoists command command') (hloops : command.loops = []) :
    command'.bare = command.bare := by
  induction hhoists with
  | assign | call | skip => rfl
  | ifThenElse _ _ ihFirst ihSecond | seq _ _ ihFirst ihSecond =>
      rw [Command.loops, List.append_eq_nil_iff] at hloops
      simp only [Command.bare, ihFirst hloops.1, ihSecond hloops.2]
  | letIn _ ih => simp only [Command.bare, ih hloops]
  | kept | wrapped => simp [Command.loops] at hloops

/-- The loops directly inside a part of the body of a loop that assigns `outer`, where the outer
loop takes `taken` values before that part. -/
def Command.nested (outer : List String) : Nat → Command → List Nested
  | _, .assign .. | _, .call .. | _, .skip _ => []
  | taken, .ifThenElse _ thenBranch elseBranch _ => thenBranch.nested outer taken ++
      elseBranch.nested outer (taken + thenBranch.values.countP (·.isInvariant outer))
  | taken, .letIn _ body _ => body.nested outer taken
  | taken, .seq first second _ => first.nested outer taken ++
      second.nested outer (taken + first.values.countP (·.isInvariant outer))
  | taken, .whileDo _ body _ => [⟨taken, body⟩]

/-- Before each value that both loops take, the inner loop takes no more values of its own than the
outer one takes before the inner one begins. -/
def Nested.InStep (outer : List String) (nest : Nested) : Prop :=
  ∀ i (_ : i < nest.body.taken.length), nest.body.taken[i].isInvariant outer = true →
    (nest.body.taken.take i).countP (fun value => !value.isInvariant outer) ≤ nest.taken

instance (outer : List String) (nest : Nested) : Decidable (nest.InStep outer) :=
  inferInstanceAs (Decidable (∀ i (_ : i < nest.body.taken.length), _))

/-- The loops directly inside a part of the body of a loop are in step with that loop. -/
def Command.InStepIn (outer : List String) (taken : Nat) (command : Command) : Prop :=
  ∀ nest ∈ command.nested outer taken, nest.InStep outer

instance (outer : List String) (taken : Nat) (command : Command) :
    Decidable (command.InStepIn outer taken) :=
  inferInstanceAs (Decidable (∀ nest ∈ command.nested outer taken, _))

/-- Every loop of a command is in step with the loop directly around it, if there is one. -/
def Command.InStep (command : Command) : Prop :=
  ∀ body ∈ command.loops, body.InStepIn body.assigned 0

instance (command : Command) : Decidable command.InStep :=
  inferInstanceAs (Decidable (∀ body ∈ command.loops, _))

/-- Every loop of a program is in step with the loop directly around it, if there is one. -/
def Program.InStep (program : Program) : Prop := program.command.InStep

instance (program : Program) : Decidable program.InStep :=
  inferInstanceAs (Decidable program.command.InStep)

/-- A position at which both loops take a value is out of step when the name that the outer loop
gave to the value comes earlier in the chain of the inner loop. -/
theorem Nested.inStep_iff {outer : List String} {nest : Nested} :
    nest.InStep outer ↔ ∀ i value, nest.body.taken[i]? = some value →
      value.isInvariant outer = true →
        i ≤ nest.taken + (nest.body.taken.take i).countP (·.isInvariant outer) := by
  -- the values before a position are those that both loops take and those of the inner loop alone
  have hsplit : ∀ i < nest.body.taken.length,
      (nest.body.taken.take i).countP (·.isInvariant outer) +
        (nest.body.taken.take i).countP (fun value => !value.isInvariant outer) = i := by
    intro i hi
    have hlength := (nest.body.taken.take i).length_eq_countP_add_countP (·.isInvariant outer)
    rw [List.length_take_of_le (by omega)] at hlength
    simpa using hlength.symm
  constructor
  · intro hstep i value hvalue hinvariant
    obtain ⟨hi, rfl⟩ := List.getElem?_eq_some_iff.mp hvalue
    have hcount := hstep i hi hinvariant
    have := hsplit i hi
    omega
  · intro hstep i hi hinvariant
    have hcount := hstep i _ (List.getElem?_eq_getElem hi) hinvariant
    have := hsplit i hi
    omega

namespace Command

variable {outer : List String} {taken : Nat} {condition : Expression} {declaration : Declaration}
  {body thenBranch elseBranch first second : Command} {span : Span}

@[simp] theorem inStepIn_ifThenElse :
    (Command.ifThenElse condition thenBranch elseBranch span).InStepIn outer taken ↔
      thenBranch.InStepIn outer taken ∧
        elseBranch.InStepIn outer (taken + thenBranch.values.countP (·.isInvariant outer)) := by
  simp only [Command.InStepIn, Command.nested, List.forall_mem_append]

@[simp] theorem inStepIn_letIn : (Command.letIn declaration body span).InStepIn outer taken ↔
    body.InStepIn outer taken := Iff.rfl

@[simp] theorem inStepIn_seq : (Command.seq first second span).InStepIn outer taken ↔
    first.InStepIn outer taken ∧
      second.InStepIn outer (taken + first.values.countP (·.isInvariant outer)) := by
  simp only [Command.InStepIn, Command.nested, List.forall_mem_append]

@[simp] theorem inStepIn_whileDo : (Command.whileDo condition body span).InStepIn outer taken ↔
    Nested.InStep outer ⟨taken, body⟩ := by
  simp only [Command.InStepIn, Command.nested, List.forall_mem_singleton]

@[simp] theorem inStep_ifThenElse :
    (Command.ifThenElse condition thenBranch elseBranch span).InStep ↔
      thenBranch.InStep ∧ elseBranch.InStep := by
  simp only [Command.InStep, Command.loops, List.forall_mem_append]

@[simp] theorem inStep_letIn : (Command.letIn declaration body span).InStep ↔ body.InStep := Iff.rfl

@[simp] theorem inStep_seq : (Command.seq first second span).InStep ↔
    first.InStep ∧ second.InStep := by
  simp only [Command.InStep, Command.loops, List.forall_mem_append]

@[simp] theorem inStep_whileDo : (Command.whileDo condition body span).InStep ↔
    body.InStepIn body.assigned 0 ∧ body.InStep := by
  simp only [Command.InStep, Command.loops, List.forall_mem_cons]

end Command

/-! ## Commands inside a loop after its extraction -/

theorem Command.Unreserved.not_reserved_of_mem_values {value : Expression} :
    ∀ {command : Command}, command.Unreserved → value ∈ command.values →
      ∀ name ∈ value.free, ¬ Reserved name
  | .assign .., hcommand, hvalue => by
      obtain rfl := List.mem_singleton.mp hvalue
      intro name hname
      exact (Command.unreserved_assign.mp hcommand).2 name (value.free_subset_identifiers hname)
  | .call .., _, hvalue | .skip _, _, hvalue => by simp [Command.values] at hvalue
  | .ifThenElse .., hcommand, hvalue => by
      obtain ⟨-, hthen, helse⟩ := Command.unreserved_ifThenElse.mp hcommand
      rcases List.mem_append.mp hvalue with hmem | hmem
      · exact hthen.not_reserved_of_mem_values hmem
      · exact helse.not_reserved_of_mem_values hmem
  | .letIn .., hcommand, hvalue =>
      (Command.unreserved_letIn.mp hcommand).2.not_reserved_of_mem_values hvalue
  | .seq .., hcommand, hvalue => by
      obtain ⟨hfirst, hsecond⟩ := Command.unreserved_seq.mp hcommand
      rcases List.mem_append.mp hvalue with hmem | hmem
      · exact hfirst.not_reserved_of_mem_values hmem
      · exact hsecond.not_reserved_of_mem_values hmem
  | .whileDo .., hcommand, hvalue =>
      (Command.unreserved_whileDo.mp hcommand).2.not_reserved_of_mem_values hvalue

/-- A part of the body of a loop that assigns `outer`, as written (`source`) and after the
extraction of that loop (`command`), which took `taken` values before that part. -/
structure Within (outer : List String) (taken : Nat) (source command : Command) : Prop where
  extracts : ∃ constants, Extracts outer taken source command constants
  unreserved : source.Unreserved
  outer_unreserved : ∀ name ∈ outer, ¬ Reserved name
  assigned_subset : source.assigned ⊆ outer

namespace Within

variable {outer : List String} {taken : Nat} {source : Command} {condition : Expression}
  {declaration : Declaration} {body thenBranch elseBranch first second : Command} {span : Span}

theorem ifThenElse
    (hwithin : Within outer taken source (.ifThenElse condition thenBranch elseBranch span)) :
    ∃ thenSource elseSource span', source = .ifThenElse condition thenSource elseSource span' ∧
      Within outer taken thenSource thenBranch ∧
      Within outer (taken + thenSource.values.countP (·.isInvariant outer))
        elseSource elseBranch := by
  obtain ⟨⟨constants, hextract⟩, hsource, houter, hsub⟩ := hwithin
  cases hextract with
  | ifThenElse hthen helse =>
      obtain ⟨-, hthenSource, helseSource⟩ := Command.unreserved_ifThenElse.mp hsource
      rw [hthen.length_constants] at helse
      rw [Command.assigned, List.append_subset] at hsub
      exact ⟨_, _, _, rfl, ⟨⟨_, hthen⟩, hthenSource, houter, hsub.1⟩,
        ⟨⟨_, helse⟩, helseSource, houter, hsub.2⟩⟩

theorem seq (hwithin : Within outer taken source (.seq first second span)) :
    ∃ firstSource secondSource span', source = .seq firstSource secondSource span' ∧
      Within outer taken firstSource first ∧
      Within outer (taken + firstSource.values.countP (·.isInvariant outer))
        secondSource second := by
  obtain ⟨⟨constants, hextract⟩, hsource, houter, hsub⟩ := hwithin
  cases hextract with
  | seq hfirst hsecond =>
      obtain ⟨hfirstSource, hsecondSource⟩ := Command.unreserved_seq.mp hsource
      rw [hfirst.length_constants] at hsecond
      rw [Command.assigned, List.append_subset] at hsub
      exact ⟨_, _, _, rfl, ⟨⟨_, hfirst⟩, hfirstSource, houter, hsub.1⟩,
        ⟨⟨_, hsecond⟩, hsecondSource, houter, hsub.2⟩⟩

theorem letIn (hwithin : Within outer taken source (.letIn declaration body span)) :
    ∃ bodySource span', source = .letIn declaration bodySource span' ∧
      Within outer taken bodySource body := by
  obtain ⟨⟨constants, hextract⟩, hsource, houter, hsub⟩ := hwithin
  cases hextract with
  | letIn hbody =>
      exact ⟨_, _, rfl, ⟨⟨_, hbody⟩, (Command.unreserved_letIn.mp hsource).2, houter, hsub⟩⟩

theorem whileDo (hwithin : Within outer taken source (.whileDo condition body span)) :
    ∃ bodySource span', source = .whileDo condition bodySource span' ∧
      Within outer taken bodySource body := by
  obtain ⟨⟨constants, hextract⟩, hsource, houter, hsub⟩ := hwithin
  cases hextract with
  | whileDo hbody =>
      exact ⟨_, _, rfl,
        ⟨⟨_, hbody⟩, (Command.unreserved_whileDo.mp hsource).2, houter, hsub⟩⟩

/-- The body of a loop that stands in no other. -/
theorem of_extracts {middle : Command} {constants : List Constant} (hbody : body.Unreserved)
    (hextract : Extracts body.assigned 0 body middle constants) :
    Within body.assigned 0 body middle :=
  ⟨⟨_, hextract⟩, hbody, fun _ => hbody.not_reserved_of_assigned, List.Subset.refl _⟩

theorem assigned_eq (hwithin : Within outer taken source body) :
    body.assigned = source.assigned := by
  obtain ⟨_, hextract⟩ := hwithin.extracts
  exact hextract.assigned_eq

theorem keepsReserved (hwithin : Within outer taken source body) : body.KeepsReserved := by
  obtain ⟨_, hextract⟩ := hwithin.extracts
  exact hextract.keepsReserved (source.keepsReserved_of_unreserved hwithin.unreserved)

variable {middle : Command} {constants : List Constant}

/-- The body of a loop inside another, after the extractions of both, is what the extraction of the
inner loop leaves of it as written. -/
theorem inner (hwithin : Within outer taken source body)
    (hextract : Extracts body.assigned 0 body middle constants) :
    Within body.assigned 0 source middle := by
  obtain ⟨_, houter⟩ := hwithin.extracts
  have hreserved : ∀ name ∈ body.assigned, ¬ Reserved name := by
    intro name hname
    rw [hwithin.assigned_eq] at hname
    exact hwithin.unreserved.not_reserved_of_assigned hname
  have hsub : body.assigned ⊆ outer := hwithin.assigned_eq ▸ hwithin.assigned_subset
  -- what the extraction of the outer loop changed in the body, that of the inner one changes again
  obtain ⟨direct, hdirect, -⟩ := houter.comp hextract hsub hreserved
  exact ⟨⟨direct, hdirect⟩, hwithin.unreserved, hreserved, by rw [hwithin.assigned_eq]; simp⟩

/-- The constants of a loop inside another are the values it takes, with reads of the outer
constants in the places of those that the outer loop took before. -/
theorem constants_eq (hwithin : Within outer taken source body)
    (hextract : Extracts body.assigned 0 body middle constants) :
    constants = innerConstants outer taken source.taken := by
  obtain ⟨_, houter⟩ := hwithin.extracts
  rw [hextract.constants_eq, houter.values_eq, hwithin.assigned_eq, innerConstants, Command.taken,
    filter_afterExtraction hwithin.assigned_subset]
  exact hoistedName_notMem_of_not_reserved fun _ => hwithin.unreserved.not_reserved_of_assigned

end Within

end LoopHoist
