import LoopHoist.Proofs.Meaning.Capture
import LoopHoist.Proofs.Meaning.Partial

/-!
# Failures before the loop

The constants of a loop are evaluated before the loop, once, whether or not the assignments they
come from are ever reached: the loop may be left at once, and the assignment may stand in a branch
that is never taken.  If such a value is undefined, the hoisted program fails where the program does
not.

`Arrives I c s body s'` says that running `c` from `s` comes to a loop with the given body in the
store `s'`.  `completes_optimise_iff` says that this is the whole difference: as long as no loop
stands in another, the hoisted program completes exactly when the program does and every value that
a loop takes is defined in each store in which the run arrives at that loop.

## Strategy

Inside the block of its constants a loop runs in a covered store (`Store.overlay`).  A store goes
with its cover when every constant is defined in the store and has the value that covers its name
(`Constant.Covered`).  The loop changes no variable that a constant reads, so this stays true, and
step by step the extracted body completes in the covered store exactly when the body completes in
the plain one (`Extracts.completes_overlay_iff`): the read of a constant is always defined, and in
its place the body evaluates a value that is defined too.
-/

namespace LoopHoist

universe u

variable {V : Type u} {I : PartialInterpretation V}

/-! ## Arriving at loops -/

/-- Running the command from the first store comes to a loop with the given body in the second one.
Loops inside loops do not count. -/
inductive Arrives (I : PartialInterpretation V) : Command → Store V → Command → Store V → Prop
  | loop {condition body span store} : Arrives I (.whileDo condition body span) store body store
  | ifTrue {condition thenBranch elseBranch span test store body store'}
      (hcondition : condition.value? I store = some test) (htest : I.holds test = true)
      (hthen : Arrives I thenBranch store body store') :
      Arrives I (.ifThenElse condition thenBranch elseBranch span) store body store'
  | ifFalse {condition thenBranch elseBranch span test store body store'}
      (hcondition : condition.value? I store = some test) (htest : I.holds test = false)
      (helse : Arrives I elseBranch store body store') :
      Arrives I (.ifThenElse condition thenBranch elseBranch span) store body store'
  | first {first second span store body store'} (hfirst : Arrives I first store body store') :
      Arrives I (.seq first second span) store body store'
  | second {first second span store middle body store'}
      (hfirst : Completes I first store middle) (hsecond : Arrives I second middle body store') :
      Arrives I (.seq first second span) store body store'

/-- Every value that a loop takes is defined wherever the run from the given store arrives at the
loop. -/
def Command.Prepared (I : PartialInterpretation V) (command : Command) (store : Store V) : Prop :=
  ∀ body store', Arrives I command store body store' →
    ∀ value ∈ body.taken, (value.value? I store').isSome

theorem Command.prepared_ifThenElse_iff {condition : Expression} {thenBranch elseBranch : Command}
    {span : Span} {test : V} {store : Store V}
    (hcondition : condition.value? I store = some test) :
    (Command.ifThenElse condition thenBranch elseBranch span).Prepared I store ↔
      (if I.holds test then thenBranch else elseBranch).Prepared I store := by
  constructor
  · intro hprepared body store' harrives
    split at harrives
    · rename_i htest
      exact hprepared body store' (.ifTrue hcondition htest harrives)
    · rename_i htest
      exact hprepared body store' (.ifFalse hcondition (by simpa using htest) harrives)
  · intro hprepared body store' harrives
    cases harrives with
    | ifTrue hcondition' htest hthen =>
        obtain rfl := Option.some.inj (hcondition.symm.trans hcondition')
        rw [if_pos htest] at hprepared
        exact hprepared body store' hthen
    | ifFalse hcondition' htest helse =>
        obtain rfl := Option.some.inj (hcondition.symm.trans hcondition')
        rw [if_neg (by simp [htest])] at hprepared
        exact hprepared body store' helse

theorem Command.prepared_seq_iff {first second : Command} {span : Span} {store middle : Store V}
    (hfirst : Completes I first store middle) :
    (Command.seq first second span).Prepared I store ↔
      first.Prepared I store ∧ second.Prepared I middle := by
  constructor
  · intro hprepared
    exact ⟨fun body store' harrives => hprepared body store' (.first harrives),
      fun body store' harrives => hprepared body store' (.second hfirst harrives)⟩
  · rintro ⟨hinFirst, hinSecond⟩ body store' harrives
    cases harrives with
    | first harrives => exact hinFirst body store' harrives
    | second hfirst' harrives =>
        obtain rfl := hfirst.deterministic hfirst'
        exact hinSecond body store' harrives

theorem Command.prepared_whileDo_iff {condition : Expression} {body : Command} {span : Span}
    {store : Store V} :
    (Command.whileDo condition body span).Prepared I store ↔
      ∀ value ∈ body.taken, (value.value? I store).isSome := by
  constructor
  · intro hprepared
    exact hprepared body store .loop
  · intro hdefined body' store' harrives
    cases harrives with
    | loop => exact hdefined

/-! ## Spans mean nothing -/

theorem Command.completes_bare : ∀ (command : Command) {store final : Store V},
    Completes I command.bare store final ↔ Completes I command store final
  | .assign .., _, _ => by simp only [Command.bare, completes_assign_iff]
  | .call .., _, _ => by
      constructor
      · rintro (_ | _)
      · rintro (_ | _)
  | .skip _, _, _ => by simp only [Command.bare, completes_skip_iff]
  | .ifThenElse _ thenBranch elseBranch _, _, _ => by
      simp only [Command.bare, completes_ifThenElse_iff, ← apply_ite Command.bare]
      refine exists_congr fun test => and_congr_right fun _ => ?_
      split
      · exact thenBranch.completes_bare
      · exact elseBranch.completes_bare
  | .letIn _ body _, _, _ => by
      simp only [Command.bare, completes_letIn_iff, body.completes_bare]
  | .seq first second _, _, _ => by
      simp only [Command.bare, completes_seq_iff, first.completes_bare, second.completes_bare]
  | .whileDo condition body span, store, final => by
      have hloop : Completes I (.whileDo condition body.bare .dummy) (id store) final ↔
          ∃ ending, Completes I (.whileDo condition body span) store ending ∧
            final = id ending := by
        refine completes_whileDo_iff id (fun _ => True) (fun _ _ => rfl) ?_
          (fun _ _ _ _ => trivial) trivial
        intro start ending _
        simp [body.completes_bare]
      simpa [Command.bare] using hloop

/-- Commands that differ in spans only complete together. -/
theorem completes_congr_of_bare {command command' : Command} (hbare : command.bare = command'.bare)
    {store final : Store V} :
    Completes I command store final ↔ Completes I command' store final := by
  rw [← command.completes_bare, hbare, command'.completes_bare]

/-! ## Loops in the block of their constants -/

/-- Every constant is defined in the store, and its value is what covers its name. -/
def Constant.Covered (I : PartialInterpretation V) (constants : List Constant)
    (cover : String → Option V) (store : Store V) : Prop :=
  ∀ constant ∈ constants, ∃ value,
    constant.value.value? I store = some value ∧ cover constant.name = some value

/-- A completed run that assigns nothing the constants read keeps their values. -/
theorem Constant.Covered.of_completes {constants : List Constant} {cover : String → Option V}
    {command : Command} {store final : Store V}
    (hcovered : Constant.Covered I constants cover store)
    (hplain : ∀ constant ∈ constants, constant.value.isPlain = true)
    (hfree : ∀ constant ∈ constants, ∀ name ∈ constant.value.free, name ∉ command.assigned)
    (hcompletes : Completes I command store final) : Constant.Covered I constants cover final := by
  intro constant hmem
  obtain ⟨value, hvalue, hcover⟩ := hcovered constant hmem
  refine ⟨value, ?_, hcover⟩
  rw [← hvalue]
  refine Expression.value?_congr I (hplain constant hmem) fun name hname => ?_
  exact hcompletes.frame (hfree constant hmem name hname)

section Covering

variable {cover : String → Option V} (hcover : ∀ name, ¬ Reserved name → cover name = none)

include hcover

theorem Expression.Clean.value?_overlay {expression : Expression} (hclean : expression.Clean)
    (store : Store V) :
    expression.value? I (Store.overlay cover store) = expression.value? I store :=
  Expression.value?_congr I hclean.1 (hclean.agree_overlay hcover store)

/-- Two assignments to the same place complete together, one in the covered and one in the plain
store, if the values they assign are the same there. -/
theorem completes_assign_overlay_iff {target : Vname} {value value' : Expression}
    {span span' : Span} (hplain : target.isPlain = true)
    (hfree : ∀ name ∈ target.free, ¬ Reserved name) {store ending : Store V}
    (hvalue : value'.value? I (Store.overlay cover store) = value.value? I store) :
    Completes I (.assign target value' span') (Store.overlay cover store) ending ↔
      ∃ final, Completes I (.assign target value span) store final ∧
        ending = Store.overlay cover final := by
  have hput : target.put? I (Store.overlay cover store) = target.put? I store :=
    target.put?_congr I hplain fun name hname =>
      Store.overlay_of_none (hcover name (hfree name hname)) store
  have hbase := hcover _ (hfree _ target.base_mem_free)
  simp only [completes_assign_iff, hvalue, hput, Store.update_overlay_of_none hbase]
  constructor
  · rintro ⟨result, stored, hresult, hstored, rfl⟩
    exact ⟨_, ⟨result, stored, hresult, hstored, rfl⟩, rfl⟩
  · rintro ⟨final, ⟨result, stored, hresult, hstored, rfl⟩, rfl⟩
    exact ⟨result, stored, hresult, hstored, rfl⟩

/-- What an extraction leaves completes in the covered store exactly when the command itself
completes in the plain one.  The constants may be more than those of the command at hand: the parts
of a body share them. -/
theorem Extracts.completes_overlay_iff {assigned : List String} {issued : Nat}
    {command command' : Command} {constants all : List Constant}
    (hextract : Extracts assigned issued command command' constants) (hall : constants ⊆ all)
    (hplain : ∀ constant ∈ all, constant.value.isPlain = true)
    (hfree : ∀ constant ∈ all, ∀ name ∈ constant.value.free, name ∉ assigned)
    (hsub : command.assigned ⊆ assigned) (htidy : command.Tidy)
    (hvalues : ∀ value ∈ command.values, value.Clean) {store ending : Store V}
    (hstore : Constant.Covered I all cover store) :
    Completes I command' (Store.overlay cover store) ending ↔
      ∃ final, Completes I command store final ∧ ending = Store.overlay cover final := by
  -- the constants keep their values while a part of the command runs
  have hkeeps : ∀ {part : Command} {start next : Store V}, Completes I part start next →
      part.assigned ⊆ assigned → Constant.Covered I all cover start →
      Constant.Covered I all cover next := by
    intro part start next hcompletes hpart hstart
    refine hstart.of_completes hplain (fun constant hmem name hname hassigned => ?_) hcompletes
    exact hfree constant hmem name hname (hpart hassigned)
  induction hextract generalizing store ending with
  | taken =>
      -- the constant is defined, and the read finds its value in the cover
      obtain ⟨value, hvalue, hname⟩ := hstore _ (hall List.mem_cons_self)
      refine completes_assign_overlay_iff hcover htidy.1.1 htidy.1.2 ?_
      rw [hvalue]
      simp [Constant.reading, Expression.value?, Vname.value?, Identifier.invented, Store.overlay,
        hname]
  | left =>
      refine completes_assign_overlay_iff hcover htidy.1.1 htidy.1.2 ?_
      exact (hvalues _ List.mem_cons_self).value?_overlay hcover store
  | call | letIn => exact htidy.elim
  | skip => simp [completes_skip_iff]
  | @ifThenElse _ _ thenBranch thenBranch' elseBranch elseBranch' _ _ _ _ _ _ ihThen ihElse =>
      rw [List.append_subset] at hall
      rw [Command.assigned, List.append_subset] at hsub
      rw [Command.values, List.forall_mem_append] at hvalues
      have hbranch : ∀ test,
          Completes I (if I.holds test then thenBranch' else elseBranch')
              (Store.overlay cover store) ending ↔
            ∃ final, Completes I (if I.holds test then thenBranch else elseBranch) store final ∧
              ending = Store.overlay cover final := by
        intro test
        split
        · exact ihThen hall.1 hsub.1 htidy.2.1 hvalues.1 hstore
        · exact ihElse hall.2 hsub.2 htidy.2.2 hvalues.2 hstore
      simp only [completes_ifThenElse_iff, htidy.1.value?_overlay hcover, hbranch]
      constructor
      · rintro ⟨test, hcondition, final, hfinal, rfl⟩
        exact ⟨final, ⟨test, hcondition, hfinal⟩, rfl⟩
      · rintro ⟨final, ⟨test, hcondition, hfinal⟩, rfl⟩
        exact ⟨test, hcondition, final, hfinal, rfl⟩
  | seq _ _ ihFirst ihSecond =>
      rw [List.append_subset] at hall
      rw [Command.assigned, List.append_subset] at hsub
      rw [Command.values, List.forall_mem_append] at hvalues
      simp only [completes_seq_iff]
      constructor
      · rintro ⟨middle', hfirst', hsecond'⟩
        obtain ⟨middle, hfirst, rfl⟩ := (ihFirst hall.1 hsub.1 htidy.1 hvalues.1 hstore).mp hfirst'
        have hmiddle := hkeeps hfirst hsub.1 hstore
        obtain ⟨final, hsecond, rfl⟩ :=
          (ihSecond hall.2 hsub.2 htidy.2 hvalues.2 hmiddle).mp hsecond'
        exact ⟨final, ⟨middle, hfirst, hsecond⟩, rfl⟩
      · rintro ⟨final, ⟨middle, hfirst, hsecond⟩, rfl⟩
        have hmiddle := hkeeps hfirst hsub.1 hstore
        exact ⟨_, (ihFirst hall.1 hsub.1 htidy.1 hvalues.1 hstore).mpr ⟨middle, hfirst, rfl⟩,
          (ihSecond hall.2 hsub.2 htidy.2 hvalues.2 hmiddle).mpr ⟨final, hsecond, rfl⟩⟩
  | whileDo _ ih =>
      -- the loop keeps the constants covered, round after round
      refine completes_whileDo_iff (Store.overlay cover) (Constant.Covered I all cover) ?_ ?_ ?_
        hstore
      · intro start _
        exact htidy.1.value?_overlay hcover start
      · intro start ending hstart
        exact ih hall hsub htidy.2 hvalues hstart
      · intro start next hstart hbody
        exact hkeeps hbody hsub hstart

end Covering

theorem Constant.bind?_declaration {constant : Constant} (hclean : constant.value.Clean)
    {store start : Store V} (hstart : ∀ name, ¬ Reserved name → start name = store name) :
    constant.declaration.bind? I start =
      (constant.value.value? I store).map (Function.update start constant.name) := by
  have hvalue : constant.value.value? I start = constant.value.value? I store :=
    Expression.value?_congr I hclean.1 fun name hname => hstart name (hclean.2 name hname)
  simp only [Constant.declaration, Declaration.bind?, Identifier.invented, hvalue]

theorem update_reserved {store start : Store V} {reserved : String} (hreserved : Reserved reserved)
    (hstart : ∀ name, ¬ Reserved name → start name = store name) (value : V) (name : String)
    (hname : ¬ Reserved name) : Function.update start reserved value name = store name := by
  have hne : name ≠ reserved := fun heq => hname (heq ▸ hreserved)
  rw [Function.update_of_ne hne, hstart name hname]

/-- Constants that read no reserved name can be bound exactly when all of them are defined outside
the block. -/
theorem isSome_bind?_of_chain? {constants : List Constant} {chain : Declaration}
    (hchain : Declaration.chain? .dummy (constants.map Constant.declaration) = some chain)
    (hconstants : ∀ constant ∈ constants, Reserved constant.name ∧ constant.value.Clean)
    {store start : Store V} (hstart : ∀ name, ¬ Reserved name → start name = store name) :
    (chain.bind? I start).isSome ↔
      ∀ constant ∈ constants, (constant.value.value? I store).isSome := by
  revert start hconstants
  refine chain_induction ?_ ?_ hchain
  · intro constant hconstants start hstart
    rw [List.forall_mem_singleton] at hconstants
    simp [Constant.bind?_declaration hconstants.2 hstart]
  · intro constant rest tail ih hconstants start hstart
    rw [List.forall_mem_cons] at hconstants
    rw [Declaration.bind?, Constant.bind?_declaration hconstants.1.2 hstart, List.forall_mem_cons]
    cases constant.value.value? I store with
    | none => simp
    | some value =>
        -- the next constant is evaluated where this one is bound, and does not see it
        simpa using ih hconstants.2 (update_reserved hconstants.1.1 hstart value)

/-- Bound constants have their values from outside the block. -/
theorem value?_of_bind?_chain {constants : List Constant} {chain : Declaration}
    (hchain : Declaration.chain? .dummy (constants.map Constant.declaration) = some chain)
    (hconstants : ∀ constant ∈ constants, Reserved constant.name ∧ constant.value.Clean)
    (hnodup : (constants.map Constant.name).Nodup) {store start inner : Store V}
    (hstart : ∀ name, ¬ Reserved name → start name = store name)
    (hbind : chain.bind? I start = some inner) :
    (∀ constant ∈ constants, constant.value.value? I store = some (inner constant.name)) ∧
      ∀ name, name ∉ constants.map Constant.name → inner name = start name := by
  revert start hconstants hnodup
  refine chain_induction ?_ ?_ hchain
  · intro constant hconstants _ start hstart hbind
    rw [List.forall_mem_singleton] at hconstants
    rw [Constant.bind?_declaration hconstants.2 hstart, Option.map_eq_some_iff] at hbind
    obtain ⟨value, hvalue, rfl⟩ := hbind
    refine ⟨?_, fun name hname => ?_⟩
    · simp [hvalue]
    · simp only [List.map_cons, List.map_nil, List.mem_singleton] at hname
      exact Function.update_of_ne hname _ _
  · intro constant rest tail ih hconstants hnodup start hstart hbind
    rw [List.forall_mem_cons] at hconstants
    rw [List.map_cons, List.nodup_cons] at hnodup
    rw [Declaration.bind?, Constant.bind?_declaration hconstants.1.2 hstart,
      Option.bind_eq_some_iff] at hbind
    obtain ⟨next, hfirst, hbind⟩ := hbind
    obtain ⟨value, hvalue, rfl⟩ := Option.map_eq_some_iff.mp hfirst
    -- binding a reserved name cannot be seen in the values of the constants to come
    have hnext := update_reserved hconstants.1.1 hstart value
    obtain ⟨hvalues, hothers⟩ := ih hconstants.2 hnodup.2 hnext hbind
    refine ⟨List.forall_mem_cons.mpr ⟨?_, hvalues⟩, fun name hname => ?_⟩
    · rw [hothers _ hnodup.1, Function.update_self, hvalue]
    · rw [List.map_cons, List.mem_cons, not_or] at hname
      rw [hothers name hname.2, Function.update_of_ne hname.1]

/-- Covers the given names by their values in a store. -/
def Store.covering (names : List String) (inner : Store V) : String → Option V := fun name =>
  if name ∈ names then some (inner name) else none

theorem Store.covering_of_notMem {names : List String} {inner : Store V} {name : String}
    (hname : name ∉ names) : Store.covering names inner name = none :=
  if_neg hname

theorem Store.overlay_covering {names : List String} {store inner : Store V}
    (hinner : ∀ name, name ∉ names → inner name = store name) :
    Store.overlay (Store.covering names inner) store = inner := by
  funext name
  unfold Store.overlay Store.covering
  split
  · rfl
  · rename_i hname
    exact (hinner name hname).symm

/-- The constants of a loop have reserved names, and their values read none of these. -/
theorem Extracts.reserved_and_clean {assigned : List String} {issued : Nat}
    {command command' : Command} {constants : List Constant}
    (hextract : Extracts assigned issued command command' constants)
    (hvalues : ∀ value ∈ command.values, value.Clean) :
    ∀ constant ∈ constants, Reserved constant.name ∧ constant.value.Clean :=
  fun _ hmem => ⟨hextract.reserved_name hmem, hvalues _ (hextract.value_mem hmem).1⟩

section Block

variable {condition : Expression} {body middle : Command} {constants : List Constant}
  {chain : Declaration} {span span' span'' : Span}
  (hextract : Extracts body.assigned 0 body middle constants)
  (hchain : Declaration.chain? .dummy (constants.map Constant.declaration) = some chain)
  (htidy : (Command.whileDo condition body span).Tidy)
  (hvalues : ∀ value ∈ body.values, value.Clean)

include hextract hchain htidy hvalues

/-- Once its constants are bound, a loop does in their block what it did without them. -/
theorem Extracts.completes_bound_iff {store inner ending : Store V}
    (hbind : chain.bind? I store = some inner) :
    Completes I (.whileDo condition middle span') inner ending ↔
      ∃ final, Completes I (.whileDo condition body span) store final ∧
        ending = Store.overlay (Store.covering (constants.map Constant.name) inner) final := by
  have hconstants := hextract.reserved_and_clean hvalues
  obtain ⟨hbound, hothers⟩ := value?_of_bind?_chain hchain hconstants hextract.nodup_names
    (fun (name : String) _ => Eq.refl (store name)) hbind
  have hcover : ∀ name, ¬ Reserved name →
      Store.covering (constants.map Constant.name) inner name = none := by
    intro name hname
    exact Store.covering_of_notMem
      (notMem_names_of_not_reserved (fun _ hmem => (hconstants _ hmem).1) hname)
  -- the names are covered by what the constants were bound to
  have hcovered : Constant.Covered I constants
      (Store.covering (constants.map Constant.name) inner) store := by
    intro constant hmem
    refine ⟨inner constant.name, hbound constant hmem, ?_⟩
    rw [Store.covering, if_pos (List.mem_map_of_mem hmem)]
  have hfree : ∀ constant ∈ constants, ∀ name ∈ constant.value.free, name ∉ body.assigned :=
    fun _ hmem => (Expression.isInvariant_iff.mp (hextract.value_mem hmem).2).2
  calc Completes I (.whileDo condition middle span') inner ending
      ↔ Completes I (.whileDo condition middle span')
          (Store.overlay (Store.covering (constants.map Constant.name) inner) store) ending := by
        rw [Store.overlay_covering hothers]
    _ ↔ _ := (Extracts.whileDo hextract).completes_overlay_iff hcover (List.Subset.refl _)
        (fun constant hmem => (hconstants constant hmem).2.1) hfree (List.Subset.refl _) htidy
        hvalues hcovered

/-- A loop in the block of its constants completes exactly when the constants are defined before the
loop and the loop as it was completes. -/
theorem Extracts.completes_block_iff {store final : Store V} :
    Completes I (.letIn chain (.whileDo condition middle span') span'') store final ↔
      Completes I (.whileDo condition body span) store final ∧
        ∀ constant ∈ constants, (constant.value.value? I store).isSome := by
  have hconstants := hextract.reserved_and_clean hvalues
  have hdefined := isSome_bind?_of_chain? (I := I) hchain hconstants
    (fun (name : String) _ => Eq.refl (store name))
  -- leaving the block uncovers the names of the constants, which the loop has not assigned
  have hleave : ∀ (inner : Store V) {ending : Store V},
      Completes I (.whileDo condition body span) store ending →
      Store.restore (constants.map Constant.name) store
        (Store.overlay (Store.covering (constants.map Constant.name) inner) ending) = ending := by
    intro inner ending hcompletes
    refine Store.restore_overlay (fun _ => Store.covering_of_notMem) fun name hname =>
      hcompletes.frame fun hassigned => ?_
    obtain ⟨constant, hmem, rfl⟩ := List.mem_map.mp hname
    exact Command.not_reserved_of_assigned _ htidy.keepsReserved hassigned
      (hconstants constant hmem).1
  rw [completes_letIn_iff, names_of_chain? hchain, ← hdefined]
  constructor
  · rintro ⟨inner, ending, hbind, hloop, rfl⟩
    obtain ⟨final, hfinal, rfl⟩ :=
      (hextract.completes_bound_iff hchain htidy hvalues hbind).mp hloop
    rw [hleave inner hfinal, hbind]
    exact ⟨hfinal, rfl⟩
  · rintro ⟨hfinal, hsome⟩
    obtain ⟨inner, hbind⟩ := Option.isSome_iff_exists.mp hsome
    refine ⟨inner, _, hbind, ?_, (hleave inner hfinal).symm⟩
    exact (hextract.completes_bound_iff hchain htidy hvalues hbind).mpr ⟨final, hfinal, rfl⟩

end Block

/-! ## The failures of a hoisted program -/

/-- A hoisted command without loops inside loops completes exactly when the command does and is
prepared. -/
theorem Hoists.completes_iff {command command' : Command} (hhoists : Hoists command command')
    (htidy : command.Tidy) (hvalues : ∀ value ∈ command.values, value.Clean)
    (hflat : command.Flat) {store final : Store V} :
    Completes I command' store final ↔
      Completes I command store final ∧ command.Prepared I store := by
  induction hhoists generalizing store final with
  | assign =>
      rw [completes_assign_iff, completes_assign_iff, iff_self_and]
      intro _ body store' harrives
      cases harrives
  | skip =>
      rw [completes_skip_iff, completes_skip_iff, iff_self_and]
      intro _ body store' harrives
      cases harrives
  | call | letIn => exact htidy.elim
  | @ifThenElse _ thenBranch thenBranch' elseBranch elseBranch' _ _ _ _ ihThen ihElse =>
      rw [Command.values, List.forall_mem_append] at hvalues
      rw [Command.Flat, Command.loops, List.forall_mem_append] at hflat
      -- only the branch that is taken has to be prepared
      have hbranch : ∀ test, Completes I (if I.holds test then thenBranch' else elseBranch')
            store final ↔
          Completes I (if I.holds test then thenBranch else elseBranch) store final ∧
            (if I.holds test then thenBranch else elseBranch).Prepared I store := by
        intro test
        split
        · exact ihThen htidy.2.1 hvalues.1 hflat.1
        · exact ihElse htidy.2.2 hvalues.2 hflat.2
      simp only [completes_ifThenElse_iff, hbranch]
      constructor
      · rintro ⟨test, hcondition, hcompletes, hprepared⟩
        exact ⟨⟨test, hcondition, hcompletes⟩,
          (Command.prepared_ifThenElse_iff hcondition).mpr hprepared⟩
      · rintro ⟨⟨test, hcondition, hcompletes⟩, hprepared⟩
        exact ⟨test, hcondition, hcompletes,
          (Command.prepared_ifThenElse_iff hcondition).mp hprepared⟩
  | seq _ _ ihFirst ihSecond =>
      rw [Command.values, List.forall_mem_append] at hvalues
      rw [Command.Flat, Command.loops, List.forall_mem_append] at hflat
      simp only [completes_seq_iff, ihFirst htidy.1 hvalues.1 hflat.1,
        ihSecond htidy.2 hvalues.2 hflat.2]
      constructor
      · rintro ⟨middle, ⟨hfirst, hinFirst⟩, hsecond, hinSecond⟩
        exact ⟨⟨middle, hfirst, hsecond⟩,
          (Command.prepared_seq_iff hfirst).mpr ⟨hinFirst, hinSecond⟩⟩
      · rintro ⟨⟨middle, hfirst, hsecond⟩, hprepared⟩
        obtain ⟨hinFirst, hinSecond⟩ := (Command.prepared_seq_iff hfirst).mp hprepared
        exact ⟨middle, ⟨hfirst, hinFirst⟩, hsecond, hinSecond⟩
  | @kept condition body middle body' span span' hextract hbody _ =>
      have hloops := hextract.loops_eq_nil (hflat body List.mem_cons_self)
      -- the loop takes nothing and has no loop inside, so it stays as it was
      have hbare : (Command.whileDo condition body' span').bare =
          (Command.whileDo condition body span).bare := by
        simp only [Command.bare, hbody.bare_eq_of_loops_eq_nil hloops,
          hextract.bare_eq_of_copies (List.forall_mem_nil _)]
      rw [completes_congr_of_bare hbare, Command.prepared_whileDo_iff,
        ← hextract.forall_constants_iff fun value => (value.value? I store).isSome = true]
      simp
  | @wrapped condition body middle body' constants chain span span' span'' hextract hchain hbody
      _ =>
      have hloops := hextract.loops_eq_nil (hflat body List.mem_cons_self)
      -- without loops inside, hoisting the body changes spans only
      have hbare : (Command.letIn chain (.whileDo condition body' span') span'').bare =
          (Command.letIn chain (.whileDo condition middle span') span'').bare := by
        simp only [Command.bare, hbody.bare_eq_of_loops_eq_nil hloops]
      rw [completes_congr_of_bare hbare, hextract.completes_block_iff hchain htidy hvalues,
        Command.prepared_whileDo_iff,
        hextract.forall_constants_iff fun value => (value.value? I store).isSome = true]

theorem Command.clean_of_mem_values {command : Command} (htidy : command.Tidy)
    (hcommand : command.Unreserved) : ∀ value ∈ command.values, value.Clean := by
  intro value hvalue
  have hfree := hcommand.not_reserved_of_mem_values hvalue
  refine (command.tidy_of_mem_values htidy hvalue).resolve_left ?_
  rw [Expression.not_isReading hfree]
  exact Bool.false_ne_true

/-- **Which failures hoisting adds.**  If no loop stands in another, the hoisted program completes
exactly when the program completes in the same store and every value that a loop takes is defined in
each store in which the run arrives at that loop. -/
theorem completes_optimise_iff (program : Program) (hplain : program.command.isPlain = true)
    (hprogram : program.Unreserved) (hflat : program.command.Flat)
    (I : PartialInterpretation V) (store final : Store V) :
    Completes I program.optimise.command store final ↔
      Completes I program.command store final ∧
        ∀ body store', Arrives I program.command store body store' →
          ∀ value ∈ body.taken, (value.value? I store').isSome := by
  have htidy := program.command.tidy_of_isPlain hplain hprogram
  rw [Program.optimise_command]
  exact (hoists_hoisted program.command).completes_iff htidy
    (Command.clean_of_mem_values htidy hprogram) hflat

open Sketch

/-- `b := 3; while n do begin q := a / b; n := n - 1 end`. -/
def quotientLoop : Program :=
  ⟨.seq (assign "b" (int "3"))
    (loop (var "n") [assign "q" (binary (var "a") "/" (var "b")),
      assign "n" (binary (var "n") "-" (int "1"))]) .dummy, .dummy⟩

/-- The store in which `a` is `6`, the loop has one round to go, and everything else is zero. -/
def quotientStore : Store Int := fun name => if name = "a" then 6 else if name = "n" then 1 else 0

/-- The quotient is undefined in the store in which the program starts, but not in the one in which
it arrives at the loop. -/
theorem completes_optimise_iff_quotientLoop :
    quotientLoop.command.isPlain = true ∧ quotientLoop.Unreserved ∧ quotientLoop.command.Flat ∧
      (binary (var "a") "/" (var "b")).value? .arithmetic quotientStore = none ∧
      ∃ final, Completes .arithmetic quotientLoop.command quotientStore final ∧
        Completes .arithmetic quotientLoop.optimise.command quotientStore final ∧
        final "q" = 2 := by
  have hplain : quotientLoop.command.isPlain = true := by decide
  have hnames : quotientLoop.Unreserved := by decide
  have hflat : quotientLoop.command.Flat := by decide
  let arrival : Store Int := Function.update quotientStore "b" 3
  let divided : Store Int := Function.update arrival "q" 2
  have hfirst : Completes .arithmetic (assign "b" (int "3")) quotientStore arrival :=
    .assign (by decide +kernel : (int "3").value? .arithmetic quotientStore = some 3) rfl
  have hround : Completes .arithmetic
      (.seqAll .dummy [assign "q" (binary (var "a") "/" (var "b")),
        assign "n" (binary (var "n") "-" (int "1"))]) arrival (Function.update divided "n" 0) :=
    .seq (.assign (by decide +kernel :
        (binary (var "a") "/" (var "b")).value? .arithmetic arrival = some 2) rfl)
      (.assign (by decide +kernel :
        (binary (var "n") "-" (int "1")).value? .arithmetic divided = some 0) rfl)
  have htrue : (var "n").value? .arithmetic arrival = some 1 := by decide +kernel
  have hfalse : (var "n").value? .arithmetic (Function.update divided "n" 0) = some 0 := by
    decide +kernel
  have hcompletes : Completes .arithmetic quotientLoop.command quotientStore
      (Function.update divided "n" 0) :=
    .seq hfirst (.whileStep htrue (by decide) hround (.whileDone hfalse (by decide)))
  have hprepared : quotientLoop.command.Prepared .arithmetic quotientStore := by
    refine (Command.prepared_seq_iff hfirst).mpr ⟨?_, ?_⟩
    · intro body store' harrives
      cases harrives
    · exact Command.prepared_whileDo_iff.mpr (by decide +kernel)
  have hiff := completes_optimise_iff quotientLoop hplain hnames hflat .arithmetic quotientStore
  exact ⟨hplain, hnames, hflat, by decide +kernel, _, hcompletes,
    (hiff _).mpr ⟨hcompletes, hprepared⟩, by decide +kernel⟩

/-- `while c do x := 1 / 0`. -/
def idleLoop : Program := ⟨loop (var "c") [assign "x" (binary (int "1") "/" (int "0"))], .dummy⟩

/-- The loop is left at once, but the quotient is evaluated before it. -/
theorem idleLoop_optimise_fails :
    idleLoop.command.isPlain = true ∧ idleLoop.Unreserved ∧ idleLoop.command.Flat ∧
      Completes .arithmetic idleLoop.command (fun _ => 0) (fun _ => 0) ∧
      ∀ final, ¬ Completes .arithmetic idleLoop.optimise.command (fun _ => 0) final := by
  have hplain : idleLoop.command.isPlain = true := by decide
  have hnames : idleLoop.Unreserved := by decide
  have hflat : idleLoop.command.Flat := by decide
  refine ⟨hplain, hnames, hflat, .whileDone rfl (by decide), fun final hcompletes => ?_⟩
  have htidy := idleLoop.command.tidy_of_isPlain hplain hnames
  rw [Program.optimise_command, (hoists_hoisted idleLoop.command).completes_iff htidy
    (Command.clean_of_mem_values htidy hnames) hflat] at hcompletes
  -- had it completed, the quotient would be defined where the loop begins
  have hdefined := Command.prepared_whileDo_iff.mp hcompletes.2
  exact absurd hdefined (by decide +kernel)

end LoopHoist
