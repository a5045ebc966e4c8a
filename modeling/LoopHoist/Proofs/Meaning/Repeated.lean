import LoopHoist.Proofs.Meaning.Capture
import Mathlib.Logic.Function.Iterate

/-!
# Hoisting what has been hoisted

A second run of hoisting meets the blocks and the reads of constants that the first one left, takes
every such read out of every loop again, and gives the names `$h1`, `$h2`, … out anew.  A read that
stood in the block of an inner loop is then evaluated outside of that block, where its name belongs
to another constant or to none.

## What the result of any number of runs means

Blocks pile up around loops, but they stay blocks of constants: `Command.Layered` describes the
commands that any number of runs can leave, and every run keeps it (`Hoists.layered`).  Such a
command means what is left when each of its blocks is replaced, from the inside out, by its body
with the constants inlined in order (`Command.resolved`, `Command.Layered.run_eq_run_resolved`).

## When a further run changes nothing

A block in which every constant is declared as the read of its own name, `$h1 ~ $h1; $h2 ~ $h2`,
does nothing (`run_letIn_copies`).  A loop gets such a block when the values it takes are the reads
`$h1`, `$h2`, … in this order.  `Command.Counted` says that this is so in every loop.  Then a run of
hoisting adds copies only, what it leaves is counted again (`Hoists.counted`), and so further runs
preserve the meaning too.  The first run leaves counted loops wherever no loop stands in another one
(`Hoists.counted_of_flat`).
-/

namespace LoopHoist

universe u

variable {V : Type u}

/-! ## Commands with blocks of constants around blocks of constants -/

/-- A declaration is a chain of constants that can stand around a command assigning the given
variables: none of them changes while the command runs. -/
structure Declares (assigned : List String) (declaration : Declaration)
    (constants : List Constant) : Prop where
  chain : Declaration.chain? .dummy (constants.map Constant.declaration) = some declaration
  reserved : ∀ constant ∈ constants, Reserved constant.name
  nodup : (constants.map Constant.name).Nodup
  tidy : ∀ constant ∈ constants, constant.value.Tidy
  unassigned : ∀ constant ∈ constants, ∀ name ∈ constant.value.free, name ∉ assigned

theorem Declares.constants? {assigned : List String} {declaration : Declaration}
    {constants : List Constant} (hdeclares : Declares assigned declaration constants) :
    declaration.constants? = some constants :=
  constants?_of_chain? hdeclares.reserved hdeclares.chain

/-- A command without calls in which reserved names only occur as whole values of assignments and in
blocks of constants. -/
def Command.Layered : Command → Prop
  | .assign target value _ =>
      (target.isPlain = true ∧ ∀ name ∈ target.free, ¬ Reserved name) ∧ value.Tidy
  | .call .. => False
  | .skip _ => True
  | .ifThenElse condition thenBranch elseBranch _ =>
      condition.Clean ∧ thenBranch.Layered ∧ elseBranch.Layered
  | .letIn declaration body _ =>
      (∃ constants, Declares body.assigned declaration constants) ∧ body.Layered
  | .seq first second _ => first.Layered ∧ second.Layered
  | .whileDo condition body _ => condition.Clean ∧ body.Layered

theorem Command.Tidy.layered : ∀ {command : Command}, command.Tidy → command.Layered
  | .assign .., htidy => htidy
  | .call .., htidy | .letIn .., htidy => htidy.elim
  | .skip _, _ => trivial
  | .ifThenElse .., htidy => ⟨htidy.1, htidy.2.1.layered, htidy.2.2.layered⟩
  | .seq .., htidy => ⟨htidy.1.layered, htidy.2.layered⟩
  | .whileDo .., htidy => ⟨htidy.1, htidy.2.layered⟩

theorem Command.Layered.tidy_of_mem_values {value : Expression} :
    ∀ {command : Command}, command.Layered → value ∈ command.values → value.Tidy
  | .assign .., hlayered, hvalue => by
      obtain rfl := List.mem_singleton.mp hvalue
      exact hlayered.2
  | .call .., hlayered, _ => hlayered.elim
  | .skip _, _, hvalue => by simp [Command.values] at hvalue
  | .ifThenElse .., hlayered, hvalue => by
      rcases List.mem_append.mp hvalue with hthen | helse
      · exact hlayered.2.1.tidy_of_mem_values hthen
      · exact hlayered.2.2.tidy_of_mem_values helse
  | .letIn .., hlayered, hvalue | .whileDo .., hlayered, hvalue =>
      hlayered.2.tidy_of_mem_values hvalue
  | .seq .., hlayered, hvalue => by
      rcases List.mem_append.mp hvalue with hfirst | hsecond
      · exact hlayered.1.tidy_of_mem_values hfirst
      · exact hlayered.2.tidy_of_mem_values hsecond

theorem Extracts.layered {assigned : List String} {issued : Nat} {command command' : Command}
    {constants : List Constant} (hextract : Extracts assigned issued command command' constants)
    (hlayered : command.Layered) : command'.Layered := by
  induction hextract with
  -- the new value is a read of a constant, which is as tidy as a value can be
  | taken => exact ⟨hlayered.1, .inl (by rw [Constant.reading_of_name rfl, isReading_readOf])⟩
  | left => exact hlayered
  | call => exact hlayered.elim
  | skip => trivial
  | ifThenElse _ _ ihThen ihElse =>
      exact ⟨hlayered.1, ihThen hlayered.2.1, ihElse hlayered.2.2⟩
  | letIn hbody ih =>
      obtain ⟨⟨declared, hdeclares⟩, hinner⟩ := hlayered
      rw [← hbody.assigned_eq] at hdeclares
      exact ⟨⟨declared, hdeclares⟩, ih hinner⟩
  | seq _ _ ihFirst ihSecond => exact ⟨ihFirst hlayered.1, ihSecond hlayered.2⟩
  | whileDo _ ih => exact ⟨hlayered.1, ih hlayered.2⟩

/-- The constants of a loop can stand around it. -/
theorem Extracts.declares {body middle : Command} {constants : List Constant}
    {chain : Declaration} (hextract : Extracts body.assigned 0 body middle constants)
    (hchain : Declaration.chain? .dummy (constants.map Constant.declaration) = some chain)
    (hlayered : body.Layered) : Declares body.assigned chain constants where
  chain := hchain
  reserved _ := hextract.reserved_name
  nodup := hextract.nodup_names
  tidy _ hmem := hlayered.tidy_of_mem_values (hextract.value_mem hmem).1
  unassigned _ hmem := (Expression.isInvariant_iff.mp (hextract.value_mem hmem).2).2

/-- Hoisting keeps commands layered. -/
theorem Hoists.layered {command command' : Command} (hhoists : Hoists command command')
    (hlayered : command.Layered) : command'.Layered := by
  induction hhoists with
  | assign => exact hlayered
  | call => exact hlayered.elim
  | skip => trivial
  | ifThenElse _ _ ihThen ihElse =>
      exact ⟨hlayered.1, ihThen hlayered.2.1, ihElse hlayered.2.2⟩
  | letIn hbody ih =>
      obtain ⟨⟨declared, hdeclares⟩, hinner⟩ := hlayered
      rw [← hbody.assigned_eq] at hdeclares
      exact ⟨⟨declared, hdeclares⟩, ih hinner⟩
  | seq _ _ ihFirst ihSecond => exact ⟨ihFirst hlayered.1, ihSecond hlayered.2⟩
  | kept hextract _ ih => exact ⟨hlayered.1, ih (hextract.layered hlayered.2)⟩
  | wrapped hextract hchain hbody ih =>
      -- the loops inside assign what the body assigns, so the block still fits around them
      have hdeclares := hextract.declares hchain hlayered.2
      rw [← hextract.assigned_eq, ← hbody.assigned_eq] at hdeclares
      exact ⟨⟨_, hdeclares⟩, hlayered.1, ih (hextract.layered hlayered.2)⟩

/-! ## Resolving the blocks of constants -/

/-- Replaces every block of reserved constants by its body with the constants inlined in order. -/
def Command.resolved : Command → Command
  | .assign target value span => .assign target value span
  | .call procedure arguments span => .call procedure arguments span
  | .skip span => .skip span
  | .ifThenElse condition thenBranch elseBranch span =>
      .ifThenElse condition thenBranch.resolved elseBranch.resolved span
  | .letIn declaration body span =>
      match declaration.constants? with
      | some constants => body.resolved.inlined (Constant.inOrder constants)
      | none => .letIn declaration body.resolved span
  | .seq first second span => .seq first.resolved second.resolved span
  | .whileDo condition body span => .whileDo condition body.resolved span

theorem Declares.resolved_letIn {declaration : Declaration} {body : Command}
    {constants : List Constant} {span : Span} {assigned : List String}
    (hdeclares : Declares assigned declaration constants) :
    (Command.letIn declaration body span).resolved =
      body.resolved.inlined (Constant.inOrder constants) := by
  simp only [Command.resolved, hdeclares.constants?]

theorem Command.Layered.assigned_resolved :
    ∀ {command : Command}, command.Layered → command.resolved.assigned = command.assigned
  | .assign .., _ | .skip _, _ => rfl
  | .call .., hlayered => hlayered.elim
  | .ifThenElse .., hlayered => by
      simp only [Command.resolved, Command.assigned, hlayered.2.1.assigned_resolved,
        hlayered.2.2.assigned_resolved]
  | .letIn .., ⟨⟨constants, hdeclares⟩, hbody⟩ => by
      rw [hdeclares.resolved_letIn, Command.assigned_inlined, hbody.assigned_resolved,
        Command.assigned]
  | .seq .., hlayered => by
      simp only [Command.resolved, Command.assigned, hlayered.1.assigned_resolved,
        hlayered.2.assigned_resolved]
  | .whileDo .., hlayered => by
      simp only [Command.resolved, Command.assigned, hlayered.2.assigned_resolved]

theorem Command.Layered.tidy_resolved :
    ∀ {command : Command}, command.Layered → command.resolved.Tidy
  | .assign .., hlayered => hlayered
  | .call .., hlayered => hlayered.elim
  | .skip _, _ => trivial
  | .ifThenElse .., hlayered =>
      ⟨hlayered.1, hlayered.2.1.tidy_resolved, hlayered.2.2.tidy_resolved⟩
  | .letIn .., ⟨⟨constants, hdeclares⟩, hbody⟩ => by
      rw [hdeclares.resolved_letIn]
      exact hbody.tidy_resolved.inlined
        (Constant.forall_value_inOrder Expression.Tidy hdeclares.tidy)
  | .seq .., hlayered => ⟨hlayered.1.tidy_resolved, hlayered.2.tidy_resolved⟩
  | .whileDo .., hlayered => ⟨hlayered.1, hlayered.2.tidy_resolved⟩

/-- A layered command does what it does with its blocks resolved. -/
theorem Command.Layered.run_eq_run_resolved (I : Interpretation V) (rounds : Nat) :
    ∀ {command : Command}, command.Layered →
      command.run I rounds = command.resolved.run I rounds
  | .assign .., _ | .skip _, _ => rfl
  | .call .., hlayered => hlayered.elim
  | .ifThenElse .., hlayered => by
      funext store
      simp only [Command.resolved, Command.run, hlayered.2.1.run_eq_run_resolved I rounds,
        hlayered.2.2.run_eq_run_resolved I rounds]
  | .letIn declaration body span, ⟨⟨constants, hdeclares⟩, hbody⟩ => by
      funext store
      -- the blocks inside are resolved first, then this one around what is left
      have hinner : (Command.letIn declaration body span).run I rounds store =
          (Command.letIn declaration body.resolved span).run I rounds store := by
        simp only [Command.run, hbody.run_eq_run_resolved I rounds]
      have hfree : ∀ constant ∈ constants, ∀ name ∈ constant.value.free,
          name ∉ body.resolved.assigned := by
        rw [hbody.assigned_resolved]
        exact hdeclares.unassigned
      rw [hinner, hdeclares.resolved_letIn]
      exact run_letIn_chain hdeclares.chain hdeclares.reserved hdeclares.nodup hdeclares.tidy
        hbody.tidy_resolved hfree rounds store
  | .seq .., hlayered => by
      funext store
      simp only [Command.resolved, Command.run, hlayered.1.run_eq_run_resolved I rounds,
        hlayered.2.run_eq_run_resolved I rounds]
  | .whileDo .., hlayered => by
      funext store
      simp only [Command.resolved, Command.run, hlayered.2.run_eq_run_resolved I rounds]

/-- Any number of runs of hoisting leaves a layered command. -/
theorem layered_optimise_iterate {program : Program} (hplain : program.command.isPlain = true)
    (hprogram : program.Unreserved) (runs : Nat) :
    (Program.optimise^[runs] program).command.Layered := by
  induction runs with
  | zero => exact (program.command.tidy_of_isPlain hplain hprogram).layered
  | succ runs ih =>
      rw [Function.iterate_succ_apply', Program.optimise_command]
      exact (hoists_hoisted _).layered ih

/-! ## Blocks of copies -/

theorem Constant.bind_declaration_of_copy {I : Interpretation V} {constant : Constant}
    (hcopy : constant.value = constant.reading) (store : Store V) :
    constant.declaration.bind I store = store := by
  simp only [Constant.declaration, Declaration.bind, hcopy]
  exact Function.update_eq_self constant.name store

/-- A block in which each constant is declared as the read of its own name binds what is bound
already. -/
theorem bind_copies {I : Interpretation V} {constants : List Constant} {chain : Declaration}
    (hchain : Declaration.chain? .dummy (constants.map Constant.declaration) = some chain)
    (hcopies : ∀ constant ∈ constants, constant.value = constant.reading) (store : Store V) :
    chain.bind I store = store := by
  revert hcopies
  refine chain_induction ?_ ?_ hchain
  · intro constant hcopies
    exact Constant.bind_declaration_of_copy (hcopies constant List.mem_cons_self) store
  · intro constant rest tail ih hcopies
    rw [List.forall_mem_cons] at hcopies
    rw [Declaration.bind, Constant.bind_declaration_of_copy hcopies.1, ih hcopies.2]

/-- A block of copies does nothing, as long as the command in it leaves the names alone. -/
theorem run_letIn_copies {I : Interpretation V} {constants : List Constant} {chain : Declaration}
    {command : Command} {span : Span}
    (hchain : Declaration.chain? .dummy (constants.map Constant.declaration) = some chain)
    (hcopies : ∀ constant ∈ constants, constant.value = constant.reading)
    (hnames : ∀ constant ∈ constants, constant.name ∉ command.assigned)
    (rounds : Nat) (store : Store V) :
    (Command.letIn chain command span).run I rounds store = command.run I rounds store := by
  rw [Command.run, bind_copies hchain hcopies, names_of_chain? hchain]
  cases hfinal : command.run I rounds store with
  | none => rfl
  | some final =>
      simp only [Option.map_some, Option.some.injEq]
      funext name
      unfold Store.restore
      split
      · rename_i hname
        obtain ⟨constant, hmem, rfl⟩ := List.mem_map.mp hname
        -- on leaving the block its names get back what they never lost
        exact (command.run_frame I hfinal (hnames constant hmem)).symm
      · rfl

/-! ## Loops that take the reads of constants in order -/

/-- The reads of `count` constants, from the one after the first `issued` on. -/
def readsFrom (issued count : Nat) : List Expression := (List.range' (issued + 1) count).map readOf

/-- In every loop of the command, the values that the loop takes are the reads of the first, second,
third constant and so on. -/
def Command.Counted (command : Command) : Prop :=
  ∀ body ∈ command.loops, body.taken = readsFrom 0 body.taken.length

instance (command : Command) : Decidable command.Counted :=
  inferInstanceAs (Decidable (∀ body ∈ command.loops, _))

namespace Command

variable {condition : Expression} {declaration : Declaration}
  {body thenBranch elseBranch first second : Command} {span : Span}

@[simp] theorem counted_ifThenElse :
    (Command.ifThenElse condition thenBranch elseBranch span).Counted ↔
      thenBranch.Counted ∧ elseBranch.Counted := by
  simp only [Command.Counted, Command.loops, List.forall_mem_append]

@[simp] theorem counted_letIn :
    (Command.letIn declaration body span).Counted ↔ body.Counted := Iff.rfl

@[simp] theorem counted_seq :
    (Command.seq first second span).Counted ↔ first.Counted ∧ second.Counted := by
  simp only [Command.Counted, Command.loops, List.forall_mem_append]

@[simp] theorem counted_whileDo : (Command.whileDo condition body span).Counted ↔
    body.taken = readsFrom 0 body.taken.length ∧ body.Counted := by
  simp only [Command.Counted, Command.loops, List.forall_mem_cons]

/-- Whether loops are counted does not depend on spans. -/
theorem counted_congr {command command' : Command} (hbare : command.bare = command'.bare) :
    command.Counted ↔ command'.Counted := by
  have hcounted : ∀ command : Command, command.bare.Counted ↔ command.Counted := by
    intro command
    simp only [Command.Counted, command.loops_bare, List.forall_mem_map, Command.taken_bare]
  rw [← hcounted command, hbare, hcounted command']

end Command

/-! ### What a loop that takes reads in order is hoisted to -/

theorem eq_reading_of_mem_numbered {count : Nat} {constant : Constant} :
    ∀ {issued : Nat}, constant ∈ numbered issued (readsFrom issued count) →
      constant.value = constant.reading := by
  induction count with
  | zero => intro issued hmem; simp [readsFrom, numbered] at hmem
  | succ count ih =>
      intro issued hmem
      have hstart : readsFrom issued (count + 1) =
          readOf (issued + 1) :: readsFrom (issued + 1) count := by
        simp [readsFrom, List.range'_succ]
      rw [hstart, numbered] at hmem
      rcases List.mem_cons.mp hmem with rfl | hrest
      · rfl
      · exact ih hrest

/-- The constants of a loop that takes reads in order are copies, and its body stays as it is. -/
theorem Extracts.of_counted {body middle : Command} {constants : List Constant}
    (hextract : Extracts body.assigned 0 body middle constants)
    (htaken : body.taken = readsFrom 0 body.taken.length) (hbody : body.Counted) :
    (∀ constant ∈ constants, constant.value = constant.reading) ∧
      middle.bare = body.bare ∧ middle.Counted := by
  have hcopies : ∀ constant ∈ constants, constant.value = constant.reading := by
    intro constant hmem
    -- the constants are numbered in order too, so each is declared as the read of itself
    have hnumbered : constants = numbered 0 body.taken := hextract.constants_eq
    rw [hnumbered, htaken] at hmem
    exact eq_reading_of_mem_numbered hmem
  have hbare := hextract.bare_eq_of_copies hcopies
  exact ⟨hcopies, hbare, (Command.counted_congr hbare).mpr hbody⟩

namespace Hoists

variable {command command' : Command}

/-- Hoisting a counted command changes no value. -/
theorem values_eq_of_counted (hhoists : Hoists command command') (hcounted : command.Counted) :
    command'.values = command.values := by
  induction hhoists with
  | assign | call | skip => rfl
  | ifThenElse _ _ ihFirst ihSecond | seq _ _ ihFirst ihSecond =>
      simp only [Command.counted_ifThenElse, Command.counted_seq] at hcounted
      simp only [Command.values, ihFirst hcounted.1, ihSecond hcounted.2]
  | letIn _ ih => exact ih hcounted
  | @kept condition body middle body' span span' hextract _ ih
  | @wrapped condition body middle body' constants chain span span' span'' hextract _ _ ih =>
      rw [Command.counted_whileDo] at hcounted
      obtain ⟨-, hbare, hmiddle⟩ := hextract.of_counted hcounted.1 hcounted.2
      calc body'.values = middle.values := ih hmiddle
        _ = body.values := by rw [← middle.values_bare, hbare, body.values_bare]

/-- What hoisting leaves of a counted command is counted. -/
theorem counted (hhoists : Hoists command command') (hcounted : command.Counted) :
    command'.Counted := by
  induction hhoists with
  | assign | call | skip => exact hcounted
  | ifThenElse _ _ ihFirst ihSecond | seq _ _ ihFirst ihSecond =>
      simp only [Command.counted_ifThenElse, Command.counted_seq] at hcounted ⊢
      exact ⟨ihFirst hcounted.1, ihSecond hcounted.2⟩
  | letIn _ ih => exact ih hcounted
  | @kept condition body middle body' span span' hextract hbody ih
  | @wrapped condition body middle body' constants chain span span' span'' hextract _ hbody ih =>
      rw [Command.counted_whileDo] at hcounted
      obtain ⟨-, hbare, hmiddle⟩ := hextract.of_counted hcounted.1 hcounted.2
      have htaken : body'.taken = body.taken := by
        rw [← body.taken_bare, ← hbare, middle.taken_bare, Command.taken, Command.taken,
          hbody.values_eq_of_counted hmiddle, hbody.assigned_eq]
      simp only [Command.counted_letIn, Command.counted_whileDo, htaken]
      exact ⟨hcounted.1, ih hmiddle⟩

/-- Hoisting a counted command does not change what it does. -/
theorem run_eq_of_counted (hhoists : Hoists command command') (hcounted : command.Counted)
    (hassigned : ∀ name ∈ command.assigned, ¬ Reserved name) (I : Interpretation V)
    (rounds : Nat) : command'.run I rounds = command.run I rounds := by
  induction hhoists with
  | assign | call | skip => rfl
  | ifThenElse _ _ ihFirst ihSecond | seq _ _ ihFirst ihSecond =>
      simp only [Command.counted_ifThenElse, Command.counted_seq] at hcounted
      rw [Command.assigned, List.forall_mem_append] at hassigned
      funext store
      simp only [Command.run, ihFirst hcounted.1 hassigned.1, ihSecond hcounted.2 hassigned.2]
  | letIn _ ih =>
      funext store
      simp only [Command.run, ih hcounted hassigned]
  | @kept condition body middle body' span span' hextract _ ih =>
      rw [Command.counted_whileDo] at hcounted
      obtain ⟨-, hbare, hmiddle⟩ := hextract.of_counted hcounted.1 hcounted.2
      have hbody : body'.run I rounds = body.run I rounds := by
        rw [ih hmiddle (by rwa [hextract.assigned_eq]), Command.run_eq_of_bare hbare]
      funext store
      simp only [Command.run, hbody]
  | @wrapped condition body middle body' constants chain span span' span'' hextract hchain hinner
      ih =>
      rw [Command.counted_whileDo] at hcounted
      obtain ⟨hcopies, hbare, hmiddle⟩ := hextract.of_counted hcounted.1 hcounted.2
      have hbody : body'.run I rounds = body.run I rounds := by
        rw [ih hmiddle (by rwa [hextract.assigned_eq]), Command.run_eq_of_bare hbare]
      -- nothing in the loop assigns the names that the block declares
      have hnames : ∀ constant ∈ constants,
          constant.name ∉ (Command.whileDo condition body' span').assigned := by
        intro constant hmem hname
        rw [Command.assigned, hinner.assigned_eq, hextract.assigned_eq] at hname
        exact hassigned _ hname (hextract.reserved_name hmem)
      funext store
      rw [run_letIn_copies hchain hcopies hnames]
      simp only [Command.run, hbody]

end Hoists

/-! ### Loops side by side -/

theorem afterExtraction_of_forall_isInvariant {outer : List String} {values : List Expression}
    (hvalues : ∀ value ∈ values, value.isInvariant outer = true) :
    ∀ taken, afterExtraction outer taken values = readsFrom taken values.length := by
  induction values with
  | nil => intro taken; rfl
  | cons value rest ih =>
      intro taken
      rw [List.forall_mem_cons] at hvalues
      simp [afterExtraction, hvalues.1, ih hvalues.2, readsFrom, List.range'_succ]

/-- What an extraction leaves takes the reads of its constants in order. -/
theorem Extracts.taken_eq {body middle : Command} {constants : List Constant}
    (hextract : Extracts body.assigned 0 body middle constants)
    (hassigned : ∀ name ∈ body.assigned, ¬ Reserved name) :
    middle.taken = readsFrom 0 middle.taken.length := by
  have htaken : middle.taken = readsFrom 0 body.taken.length := by
    rw [Command.taken, hextract.values_eq, hextract.assigned_eq,
      filter_afterExtraction (List.Subset.refl _)
        (hoistedName_notMem_of_not_reserved hassigned)]
    exact afterExtraction_of_forall_isInvariant (fun _ hmem => (List.mem_filter.mp hmem).2) 0
  rw [htaken]
  simp [readsFrom]

/-- The first run of hoisting leaves counted loops if no loop stands in another. -/
theorem Hoists.counted_of_flat {command command' : Command} (hhoists : Hoists command command')
    (hflat : command.Flat) (hassigned : ∀ name ∈ command.assigned, ¬ Reserved name) :
    command'.Counted := by
  induction hhoists with
  | assign | call | skip => simp [Command.Counted, Command.loops]
  | ifThenElse _ _ ihFirst ihSecond | seq _ _ ihFirst ihSecond =>
      rw [Command.Flat, Command.loops, List.forall_mem_append] at hflat
      rw [Command.assigned, List.forall_mem_append] at hassigned
      simp only [Command.counted_ifThenElse, Command.counted_seq]
      exact ⟨ihFirst hflat.1 hassigned.1, ihSecond hflat.2 hassigned.2⟩
  | letIn _ ih => exact ih hflat hassigned
  | @kept condition body middle body' span span' hextract hbody _
  | @wrapped condition body middle body' constants chain span span' span'' hextract _ hbody _ =>
      -- no loop inside, so hoisting goes no further than the extraction
      have hloops : middle.loops = [] :=
        hextract.loops_eq_nil (hflat body List.mem_cons_self)
      have hbare := hbody.bare_eq_of_loops_eq_nil hloops
      have htaken : body'.taken = middle.taken := by
        rw [← body'.taken_bare, hbare, middle.taken_bare]
      have hcounted : body'.Counted := by
        rw [Command.counted_congr hbare, Command.Counted, hloops]
        exact List.forall_mem_nil _
      simp only [Command.counted_letIn, Command.counted_whileDo, htaken]
      exact ⟨hextract.taken_eq hassigned, hcounted⟩

/-! ## Repeated runs -/

theorem runs_iterate_optimise {program : Program} (hcounted : program.command.Counted)
    (hassigned : ∀ name ∈ program.command.assigned, ¬ Reserved name) (runs : Nat)
    (I : Interpretation V) (store final : Store V) :
    Runs I (Program.optimise^[runs] program).command store final ↔
      Runs I program.command store final := by
  induction runs generalizing program with
  | zero => exact Iff.rfl
  | succ runs ih =>
      have hhoists := hoists_hoisted program.command
      rw [← Program.optimise_command] at hhoists
      rw [Function.iterate_succ_apply, ih (hhoists.counted hcounted) (by rwa [hhoists.assigned_eq])]
      refine runs_congr fun rounds start => ?_
      rw [hhoists.run_eq_of_counted hcounted hassigned]

/-- **What repeated runs of hoisting mean.**  The result of any number of runs means what is left
when its blocks of constants are resolved.  So a second run preserves the meaning of the first
result if the two resolve to the same command.  It always does, and so do all further runs, if no
loop of the program stands in another or if every loop of the first result takes the reads of its
constants in order. -/
theorem runs_optimise_again (program : Program) (hplain : program.command.isPlain = true)
    (hprogram : program.Unreserved) :
    (∀ (runs : Nat) {V : Type u} (I : Interpretation V) (store final : Store V),
      Runs I (Program.optimise^[runs] program).command store final ↔
        Runs I (Program.optimise^[runs] program).command.resolved store final) ∧
    (program.optimise.optimise.command.resolved.bare = program.optimise.command.resolved.bare →
      ∀ {V : Type u} (I : Interpretation V) (store final : Store V),
        Runs I program.optimise.command store final ↔
          Runs I program.optimise.optimise.command store final) ∧
    (program.command.Flat ∨ program.optimise.command.Counted →
      ∀ (runs : Nat) {V : Type u} (I : Interpretation V) (store final : Store V),
        Runs I program.optimise.command store final ↔
          Runs I (Program.optimise^[runs] program.optimise).command store final) := by
  have hresolved : ∀ (runs : Nat) {V : Type u} (I : Interpretation V) (store final : Store V),
      Runs I (Program.optimise^[runs] program).command store final ↔
        Runs I (Program.optimise^[runs] program).command.resolved store final := by
    intro runs V I store final
    refine runs_congr fun rounds start => ?_
    rw [(layered_optimise_iterate hplain hprogram runs).run_eq_run_resolved]
  refine ⟨hresolved, ?_, ?_⟩
  · intro hbare V I store final
    -- the two results mean what they resolve to, and spans mean nothing
    calc Runs I program.optimise.command store final
        ↔ Runs I program.optimise.command.resolved store final := hresolved 1 I store final
      _ ↔ Runs I program.optimise.optimise.command.resolved store final :=
          runs_congr_of_bare hbare.symm I store final
      _ ↔ Runs I program.optimise.optimise.command store final := (hresolved 2 I store final).symm
  · intro hcases runs V I store final
    have hassigned : ∀ name ∈ program.command.assigned, ¬ Reserved name := fun _ =>
      hprogram.not_reserved_of_assigned
    have hhoists := hoists_hoisted program.command
    rw [← Program.optimise_command] at hhoists
    have hcounted : program.optimise.command.Counted :=
      hcases.elim (fun hflat => hhoists.counted_of_flat hflat hassigned) id
    rw [← hhoists.assigned_eq] at hassigned
    exact (runs_iterate_optimise hcounted hassigned runs I store final).symm

open Sketch

/-- A nest in which the inner loop stands before everything that the outer one takes for itself:

```
while i do
  begin
    while j do begin y := 7; z := 8; j := j - 1 end;
    x := k; i := i - 1
  end
``` -/
def leadingNest : Program :=
  let countdown (counter : String) := assign counter (binary (var counter) "-" (int "1"))
  ⟨loop (var "i")
    [loop (var "j") [assign "y" (int "7"), assign "z" (int "8"), countdown "j"],
      assign "x" (var "k"), countdown "i"], .dummy⟩

theorem runs_optimise_again_leadingNest :
    leadingNest.command.isPlain = true ∧ leadingNest.Unreserved ∧ ¬ leadingNest.command.Flat ∧
      leadingNest.optimise.command.Counted ∧
      leadingNest.optimise.optimise.command ≠ leadingNest.optimise.command ∧
      ∃ final, Runs .arithmetic leadingNest.optimise.command relayStore final ∧
        Runs .arithmetic leadingNest.optimise.optimise.command relayStore final ∧
        final "z" = 8 := by
  have hplain : leadingNest.command.isPlain = true := by decide
  have hnames : leadingNest.Unreserved := by decide
  have hcounted : leadingNest.optimise.command.Counted := by decide +kernel
  obtain ⟨final, hfinal, hvalue⟩ :
      ∃ final, Runs .arithmetic leadingNest.optimise.command relayStore final ∧ final "z" = 8 :=
    exists_runs_of_run 3 (by decide +kernel)
  obtain ⟨-, -, hagain⟩ := runs_optimise_again leadingNest hplain hnames
  exact ⟨hplain, hnames, by decide, hcounted, by decide +kernel, final, hfinal,
    (hagain (.inr hcounted) 1 _ _ _).mp hfinal, hvalue⟩

/-- `while i do begin x := 1; while j do begin y := 2; j := j - 1 end; i := i - 1 end`. -/
def trailingNest : Program :=
  let countdown (counter : String) := assign counter (binary (var counter) "-" (int "1"))
  ⟨loop (var "i")
    [assign "x" (int "1"), loop (var "j") [assign "y" (int "2"), countdown "j"], countdown "i"],
    .dummy⟩

/-- The first run leaves `y := $h1` in the block `$h1 ~ $h2` of the inner loop.  The second one
takes that read out of the outer loop, where `$h1` is `1`. -/
theorem trailingNest_optimise_again_changes_meaning :
    trailingNest.command.isPlain = true ∧ trailingNest.Unreserved ∧
      ¬ trailingNest.optimise.command.Counted ∧
      ∃ final final', Runs .arithmetic trailingNest.optimise.command relayStore final ∧
        Runs .arithmetic trailingNest.optimise.optimise.command relayStore final' ∧
        final "y" = 2 ∧ final' "y" = 1 ∧
        ¬ Runs .arithmetic trailingNest.optimise.optimise.command relayStore final := by
  obtain ⟨final, hfinal, hvalue⟩ :
      ∃ final, Runs .arithmetic trailingNest.optimise.command relayStore final ∧ final "y" = 2 :=
    exists_runs_of_run 3 (by decide +kernel)
  obtain ⟨final', hfinal', hvalue'⟩ :
      ∃ final, Runs .arithmetic trailingNest.optimise.optimise.command relayStore final ∧
        final "y" = 1 :=
    exists_runs_of_run 3 (by decide +kernel)
  refine ⟨by decide, by decide, by decide +kernel, final, final', hfinal, hfinal', hvalue, hvalue',
    fun hboth => ?_⟩
  rw [hboth.deterministic hfinal', hvalue'] at hvalue
  contradiction

end LoopHoist
