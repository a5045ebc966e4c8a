import LoopHoist.Proofs.Hoisting.InOrder
import LoopHoist.Proofs.Meaning.Partial
import LoopHoist.Proofs.Meaning.Runs

/-!
# What a block of constants means

The store inside a block of constants is the store outside with the names of the constants covered
(`Store.overlay`).  This file settles two questions about it.

* *Which values cover the names?*  Those of the expressions that the constants stand for in order
  (`Constant.inOrder`), computed in the store outside (`foldl_update_overlay`).
* *Does covering matter?*  Running a command in the covered store is running it with the constants
  inlined in the plain store, as long as the command changes no variable that the constants read
  (`run_overlay`).  The values that cover the names were computed once, before the loop; the inlined
  expressions are computed again in every round.  That they agree all along is the invariant
  `Constant.cover I constants store = cover`.

`run_letIn_chain` puts the two together: a block of constants around a loop means what the loop
means with the constants inlined in order.
-/

namespace LoopHoist

universe u

variable {V : Type u}

/-! ## Commands as hoisting meets them -/

/-- An expression without calls and blocks that does not read reserved names. -/
def Expression.Clean (expression : Expression) : Prop :=
  expression.isPlain = true ∧ ∀ name ∈ expression.free, ¬ Reserved name

/-- The value of an assignment before or after an extraction. -/
def Expression.Tidy (value : Expression) : Prop := value.isReading = true ∨ value.Clean

/-- A command without calls and blocks in which reserved names only occur as whole values of
assignments. -/
def Command.Tidy : Command → Prop
  | .assign target value _ =>
      (target.isPlain = true ∧ ∀ name ∈ target.free, ¬ Reserved name) ∧ value.Tidy
  | .call .. | .letIn .. => False
  | .skip _ => True
  | .ifThenElse condition thenBranch elseBranch _ =>
      condition.Clean ∧ thenBranch.Tidy ∧ elseBranch.Tidy
  | .seq first second _ => first.Tidy ∧ second.Tidy
  | .whileDo condition body _ => condition.Clean ∧ body.Tidy

/-- Whether a command is built from assignments, conditionals, sequences and loops only, over
expressions without calls and blocks. -/
def Command.isPlain : Command → Bool
  | .assign target value _ => target.isPlain && value.isPlain
  | .call .. | .letIn .. => false
  | .skip _ => true
  | .ifThenElse condition thenBranch elseBranch _ =>
      condition.isPlain && thenBranch.isPlain && elseBranch.isPlain
  | .seq first second _ => first.isPlain && second.isPlain
  | .whileDo condition body _ => condition.isPlain && body.isPlain

theorem Expression.clean_of_isPlain {expression : Expression} (hplain : expression.isPlain = true)
    (hnames : ∀ name ∈ expression.identifiers, ¬ Reserved name) : expression.Clean :=
  ⟨hplain, fun name hname => hnames name (expression.free_subset_identifiers hname)⟩

theorem Command.tidy_of_isPlain :
    ∀ command : Command, command.isPlain = true → command.Unreserved → command.Tidy
  | .assign target value _, hplain, hnames => by
      simp only [Command.isPlain, Bool.and_eq_true] at hplain
      obtain ⟨htarget, hvalue⟩ := Command.unreserved_assign.mp hnames
      exact ⟨⟨hplain.1, fun name hname => htarget name (target.free_subset_identifiers hname)⟩,
        .inr (Expression.clean_of_isPlain hplain.2 hvalue)⟩
  | .call .., hplain, _ | .letIn .., hplain, _ => by simp [Command.isPlain] at hplain
  | .skip _, _, _ => trivial
  | .ifThenElse condition thenBranch elseBranch _, hplain, hnames => by
      simp only [Command.isPlain, Bool.and_eq_true] at hplain
      obtain ⟨hcondition, hthen, helse⟩ := Command.unreserved_ifThenElse.mp hnames
      exact ⟨Expression.clean_of_isPlain hplain.1.1 hcondition,
        thenBranch.tidy_of_isPlain hplain.1.2 hthen, elseBranch.tidy_of_isPlain hplain.2 helse⟩
  | .seq first second _, hplain, hnames => by
      simp only [Command.isPlain, Bool.and_eq_true] at hplain
      obtain ⟨hfirst, hsecond⟩ := Command.unreserved_seq.mp hnames
      exact ⟨first.tidy_of_isPlain hplain.1 hfirst, second.tidy_of_isPlain hplain.2 hsecond⟩
  | .whileDo condition body _, hplain, hnames => by
      simp only [Command.isPlain, Bool.and_eq_true] at hplain
      obtain ⟨hcondition, hbody⟩ := Command.unreserved_whileDo.mp hnames
      exact ⟨Expression.clean_of_isPlain hplain.1 hcondition, body.tidy_of_isPlain hplain.2 hbody⟩

theorem Expression.Tidy.isPlain {value : Expression} (htidy : value.Tidy) :
    value.isPlain = true := by
  rcases htidy with hreading | hclean
  · obtain ⟨name, span, span', rfl, -⟩ := Expression.exists_of_isReading hreading
    rfl
  · exact hclean.1

theorem Command.tidy_of_mem_values {value : Expression} :
    ∀ command : Command, command.Tidy → value ∈ command.values → value.Tidy
  | .assign .., htidy, hvalue => by
      obtain rfl := List.mem_singleton.mp hvalue
      exact htidy.2
  | .call .., htidy, _ | .letIn .., htidy, _ => htidy.elim
  | .skip _, _, hvalue => by simp [Command.values] at hvalue
  | .ifThenElse _ thenBranch elseBranch _, htidy, hvalue => by
      rcases List.mem_append.mp hvalue with hthen | helse
      · exact thenBranch.tidy_of_mem_values htidy.2.1 hthen
      · exact elseBranch.tidy_of_mem_values htidy.2.2 helse
  | .seq first second _, htidy, hvalue => by
      rcases List.mem_append.mp hvalue with hfirst | hsecond
      · exact first.tidy_of_mem_values htidy.1 hfirst
      · exact second.tidy_of_mem_values htidy.2 hsecond
  | .whileDo _ body _, htidy, hvalue => body.tidy_of_mem_values htidy.2 hvalue

theorem Command.Tidy.keepsReserved : ∀ {command : Command}, command.Tidy → command.KeepsReserved
  | .assign target _ _, htidy => htidy.1.2 _ target.base_mem_free
  | .call .., htidy | .letIn .., htidy => htidy.elim
  | .skip _, _ => trivial
  | .ifThenElse .., htidy => ⟨htidy.2.1.keepsReserved, htidy.2.2.keepsReserved⟩
  | .seq .., htidy => ⟨htidy.1.keepsReserved, htidy.2.keepsReserved⟩
  | .whileDo .., htidy => htidy.2.keepsReserved

theorem Extracts.tidy {assigned : List String} {issued : Nat} {command command' : Command}
    {constants : List Constant} (hextract : Extracts assigned issued command command' constants)
    (htidy : command.Tidy) : command'.Tidy := by
  induction hextract with
  | taken =>
      refine ⟨htidy.1, .inl ?_⟩
      simp [Constant.reading, Identifier.invented, Expression.isReading]
  | left => exact htidy
  | call | letIn => exact htidy.elim
  | skip => trivial
  | ifThenElse _ _ ihThen ihElse => exact ⟨htidy.1, ihThen htidy.2.1, ihElse htidy.2.2⟩
  | seq _ _ ihFirst ihSecond => exact ⟨ihFirst htidy.1, ihSecond htidy.2⟩
  | whileDo _ ih => exact ⟨htidy.1, ih htidy.2⟩

theorem Command.Tidy.inlined {constants : List Constant}
    (hconstants : ∀ constant ∈ constants, constant.value.Tidy) :
    ∀ {command : Command}, command.Tidy → (command.inlined constants).Tidy
  | .assign .., htidy => ⟨htidy.1, Expression.inlined_induction htidy.2 hconstants⟩
  | .call .., htidy | .letIn .., htidy => htidy.elim
  | .skip _, _ => trivial
  | .ifThenElse .., htidy =>
      ⟨htidy.1, htidy.2.1.inlined hconstants, htidy.2.2.inlined hconstants⟩
  | .seq .., htidy => ⟨htidy.1.inlined hconstants, htidy.2.inlined hconstants⟩
  | .whileDo .., htidy => ⟨htidy.1, htidy.2.inlined hconstants⟩

theorem Command.assigned_inlined (constants : List Constant) :
    ∀ command : Command, (command.inlined constants).assigned = command.assigned
  | .assign .. | .call .. | .skip _ => rfl
  | .ifThenElse _ thenBranch elseBranch _ => by
      simp only [Command.inlined, Command.assigned, thenBranch.assigned_inlined,
        elseBranch.assigned_inlined]
  | .letIn _ body _ | .whileDo _ body _ => by
      simp only [Command.inlined, Command.assigned, body.assigned_inlined]
  | .seq first second _ => by
      simp only [Command.inlined, Command.assigned, first.assigned_inlined,
        second.assigned_inlined]

/-! ## Covered stores -/

/-- A store in which some names are covered by other values. -/
def Store.overlay (cover : String → Option V) (store : Store V) : Store V := fun name =>
  (cover name).getD (store name)

namespace Store

variable {cover : String → Option V} {name : String}

theorem overlay_of_none (hname : cover name = none) (store : Store V) :
    overlay cover store name = store name := by
  rw [overlay, hname, Option.getD_none]

/-- Giving a value to a name that is not covered goes through the cover. -/
theorem update_overlay_of_none (hname : cover name = none) (value : V) (store : Store V) :
    Function.update (overlay cover store) name value =
      overlay cover (Function.update store name value) := by
  funext other
  by_cases heq : other = name
  · subst heq
    rw [overlay_of_none hname, Function.update_self, Function.update_self]
  · unfold overlay
    rw [Function.update_of_ne heq, Function.update_of_ne heq]

/-- Leaving a block takes a cover away that lies on names of the block, if their values outside are
still the ones below the cover. -/
theorem restore_overlay {names : List String} {store final : Store V}
    (hcover : ∀ name, name ∉ names → cover name = none)
    (hfinal : ∀ name ∈ names, final name = store name) :
    restore names store (overlay cover final) = final := by
  funext name
  unfold restore
  split
  · rename_i hname
    exact (hfinal name hname).symm
  · rename_i hname
    exact overlay_of_none (hcover name hname) final

end Store

/-- Covering reserved names cannot be seen in an expression that reads none. -/
theorem Expression.Clean.agree_overlay {expression : Expression} (hclean : expression.Clean)
    {cover : String → Option V} (hcover : ∀ name, ¬ Reserved name → cover name = none)
    (store : Store V) : ∀ name ∈ expression.free, Store.overlay cover store name = store name :=
  fun name hname => Store.overlay_of_none (hcover name (hclean.2 name hname)) store

/-- The values of constants, computed in the given store, for their names. -/
def Constant.cover (I : Interpretation V) (constants : List Constant) (store : Store V) :
    String → Option V := fun name =>
  (Constant.valueOf? constants name).map fun value => value.eval I store

theorem Constant.cover_eq_none {I : Interpretation V} {constants : List Constant}
    {store : Store V} {name : String} (hname : name ∉ constants.map Constant.name) :
    Constant.cover I constants store name = none := by
  have hnone : Constant.valueOf? constants name = none :=
    Constant.valueOf?_eq_none fun constant hmem heq => hname (heq ▸ List.mem_map_of_mem hmem)
  simp [Constant.cover, hnone]

section Covering

variable {I : Interpretation V} {constants : List Constant}
  (hreserved : ∀ constant ∈ constants, Reserved constant.name)

include hreserved

theorem notMem_names_of_not_reserved {name : String} (hname : ¬ Reserved name) :
    name ∉ constants.map Constant.name := by
  intro hmem
  obtain ⟨constant, hconstant, rfl⟩ := List.mem_map.mp hmem
  exact hname (hreserved constant hconstant)

theorem Constant.cover_of_not_reserved (store : Store V) (name : String) (hname : ¬ Reserved name) :
    Constant.cover I constants store name = none :=
  Constant.cover_eq_none (notMem_names_of_not_reserved hreserved hname)

/-- Covering reserved names does not touch what reads no reserved name. -/
theorem Expression.Clean.eval_overlay {expression : Expression} (hclean : expression.Clean)
    (store outer : Store V) :
    expression.eval I (Store.overlay (Constant.cover I constants outer) store) =
      expression.eval I store := by
  have hcover := Constant.cover_of_not_reserved (I := I) hreserved outer
  exact Expression.eval_congr I hclean.1 (hclean.agree_overlay hcover store)

/-- The value of an assignment in the covered store is its inlined value in the plain store. -/
theorem Expression.Tidy.eval_overlay {value : Expression} (htidy : value.Tidy) (store : Store V) :
    value.eval I (Store.overlay (Constant.cover I constants store) store) =
      (value.inlined constants).eval I store := by
  rcases htidy with hreading | hclean
  · obtain ⟨name, span, span', rfl, -⟩ := Expression.exists_of_isReading hreading
    -- a read of a constant is what inlining replaces, and what the cover answers for
    simp only [Expression.inlined, Expression.eval, Vname.eval, Store.overlay, Constant.cover]
    cases Constant.valueOf? constants name.spelling <;> rfl
  · rw [hclean.eval_overlay hreserved,
      Expression.inlined_of_not_isReading hreserved (Expression.not_isReading hclean.2)]

/-- Assigning to a place that reads no reserved name goes through the cover. -/
theorem Vname.assign_overlay {target : Vname} (hplain : target.isPlain = true)
    (hfree : ∀ name ∈ target.free, ¬ Reserved name) (value : V) (store outer : Store V) :
    target.assign I value (Store.overlay (Constant.cover I constants outer) store) =
      Store.overlay (Constant.cover I constants outer) (target.assign I value store) := by
  have hcover := Constant.cover_of_not_reserved (I := I) hreserved outer
  have hput : target.put I (Store.overlay (Constant.cover I constants outer) store) value =
      target.put I store value :=
    target.put_congr I value hplain fun name hname =>
      Store.overlay_of_none (hcover name (hfree name hname)) store
  rw [Vname.assign, hput, Store.update_overlay_of_none (hcover _ (hfree _ target.base_mem_free)),
    Vname.assign]

end Covering

/-- A command that assigns none of the variables that constants read keeps their values, and so it
does with the constants inlined. -/
theorem Constant.cover_of_run_inlined {I : Interpretation V} {constants : List Constant}
    {rounds : Nat} {command : Command} {store final : Store V}
    (hrun : (command.inlined constants).run I rounds store = some final)
    (hplain : ∀ constant ∈ constants, constant.value.isPlain = true)
    (hfree : ∀ constant ∈ constants, ∀ name ∈ constant.value.free, name ∉ command.assigned) :
    Constant.cover I constants final = Constant.cover I constants store := by
  funext name
  unfold Constant.cover Constant.valueOf?
  cases hfind : constants.find? fun constant => constant.name = name with
  | none => rfl
  | some constant =>
      have hmem := List.mem_of_find?_eq_some hfind
      -- a constant that is found reads nothing that the command assigns
      have heval : constant.value.eval I final = constant.value.eval I store := by
        refine Expression.eval_congr I (hplain constant hmem) fun read hread => ?_
        refine Command.run_frame I _ hrun ?_
        rw [Command.assigned_inlined]
        exact hfree constant hmem read hread
      simp only [Option.map_some, heval]

/-- Running a command in a covered store is running it with the constants inlined, provided it
leaves the variables alone that the constants read. -/
theorem run_overlay {I : Interpretation V} {constants : List Constant} {cover : String → Option V}
    (rounds : Nat)
    (hreserved : ∀ constant ∈ constants, Reserved constant.name)
    (hplain : ∀ constant ∈ constants, constant.value.isPlain = true) :
    ∀ (command : Command) (store : Store V), command.Tidy →
      (∀ constant ∈ constants, ∀ name ∈ constant.value.free, name ∉ command.assigned) →
      Constant.cover I constants store = cover →
      command.run I rounds (Store.overlay cover store) =
        ((command.inlined constants).run I rounds store).map (Store.overlay cover)
  | .assign target value _, store, htidy, _, hcover => by
      subst hcover
      simp only [Command.run, Command.inlined, Option.map_some,
        htidy.2.eval_overlay hreserved, Vname.assign_overlay hreserved htidy.1.1 htidy.1.2]
  | .call .., _, htidy, _, _ | .letIn .., _, htidy, _, _ => htidy.elim
  | .skip _, _, _, _, _ => rfl
  | .ifThenElse condition thenBranch elseBranch _, store, htidy, hfree, hcover => by
      simp only [Command.assigned, List.mem_append, not_or] at hfree
      have hthen := run_overlay rounds hreserved hplain thenBranch store htidy.2.1
        (fun constant hmem name hname => (hfree constant hmem name hname).1) hcover
      have helse := run_overlay rounds hreserved hplain elseBranch store htidy.2.2
        (fun constant hmem name hname => (hfree constant hmem name hname).2) hcover
      have hcondition : condition.eval I (Store.overlay cover store) = condition.eval I store := by
        rw [← hcover]
        exact htidy.1.eval_overlay hreserved store store
      simp only [Command.run, Command.inlined, hcondition]
      split
      · exact hthen
      · exact helse
  | .seq first second _, store, htidy, hfree, hcover => by
      simp only [Command.assigned, List.mem_append, not_or] at hfree
      have hfirst := run_overlay rounds hreserved hplain first store htidy.1
        (fun constant hmem name hname => (hfree constant hmem name hname).1) hcover
      simp only [Command.run, Command.inlined, hfirst]
      cases hmiddle : (first.inlined constants).run I rounds store with
      | none => rfl
      | some middle =>
          -- the second command starts in another store, but the constants mean the same there
          have hkept : Constant.cover I constants middle = cover := by
            rw [← hcover]
            exact Constant.cover_of_run_inlined hmiddle hplain
              fun constant hmem name hname => (hfree constant hmem name hname).1
          simp only [Option.map_some, Option.bind_some]
          exact run_overlay rounds hreserved hplain second middle htidy.2
            (fun constant hmem name hname => (hfree constant hmem name hname).2) hkept
  | .whileDo condition body _, store, htidy, hfree, hcover => by
      -- the invariant of the loop: the constants still have the values that cover their names
      refine iterate_map (Store.overlay cover)
        (fun state => Constant.cover I constants state = cover)
        ?_ ?_ ?_ rounds store hcover
      · intro state hstate
        rw [← hstate, htidy.1.eval_overlay hreserved state state]
      · intro state hstate
        exact run_overlay rounds hreserved hplain body state htidy.2 hfree hstate
      · -- a round assigns nothing that the constants read
        intro state next hstate hnext
        rw [← hstate]
        exact Constant.cover_of_run_inlined hnext hplain hfree

/-! ## Binding constants one after the other -/

/-- Binding a new name on top of covered ones is covering one name more. -/
theorem update_overlay (I : Interpretation V) {settled : List Constant} (constant : Constant)
    (hname : constant.name ∉ settled.map Constant.name) (store : Store V) :
    Function.update (Store.overlay (Constant.cover I settled store) store) constant.name
        (constant.value.eval I store) =
      Store.overlay (Constant.cover I (settled ++ [constant]) store) store := by
  funext name
  by_cases heq : name = constant.name
  · -- the new name: no settled constant has it, so the last one is found
    subst heq
    have hnone : settled.find? (fun other => other.name = constant.name) = none := by
      refine List.find?_eq_none.mpr fun other hother => ?_
      simpa using fun h : other.name = constant.name => hname (h ▸ List.mem_map_of_mem hother)
    simp [Function.update_self, Store.overlay, Constant.cover, Constant.valueOf?, hnone]
  · rw [Function.update_of_ne heq]
    have hne : ¬ constant.name = name := fun h => heq h.symm
    simp [Store.overlay, Constant.cover, Constant.valueOf?, hne]

/-- Binding constants one after the other covers their names by what they stand for in order. -/
theorem foldl_update_overlay {I : Interpretation V} (store : Store V) {constants : List Constant} :
    ∀ settled : List Constant, (∀ constant ∈ settled, Reserved constant.name) →
      (∀ constant ∈ constants, Reserved constant.name ∧ constant.value.Tidy) →
      ((settled ++ constants).map Constant.name).Nodup →
      constants.foldl
          (fun state constant =>
            Function.update state constant.name (constant.value.eval I state))
          (Store.overlay (Constant.cover I settled store) store) =
        Store.overlay
          (Constant.cover I (settled ++ Constant.settleAfter settled constants) store) store := by
  induction constants with
  | nil => intro settled _ _ _; simp [Constant.settleAfter]
  | cons constant rest ih =>
      intro settled hsettled hconstants hnodup
      rw [List.forall_mem_cons] at hconstants
      -- the names differ, so nothing that was bound before is hidden
      have hname : constant.name ∉ settled.map Constant.name := by
        rw [List.map_append, List.nodup_append] at hnodup
        exact fun hmem => hnodup.2.2 _ hmem _ (by simp) rfl
      have hbind := update_overlay I ⟨constant.name, constant.value.inlined settled⟩ hname store
      rw [List.foldl_cons, hconstants.1.2.eval_overlay hsettled, hbind,
        ih _ _ hconstants.2 (by simpa using hnodup)]
      · simp [Constant.settleAfter]
      · intro other hmem
        rcases List.mem_append.mp hmem with hold | hnew
        · exact hsettled other hold
        · obtain rfl := List.mem_singleton.mp hnew
          exact hconstants.1.1

theorem bind_of_chain? {I : Interpretation V} {constants : List Constant} {chain : Declaration}
    (store : Store V)
    (hchain : Declaration.chain? .dummy (constants.map Constant.declaration) = some chain) :
    chain.bind I store = constants.foldl
      (fun state constant => Function.update state constant.name (constant.value.eval I state))
      store := by
  revert store
  refine chain_induction ?_ ?_ hchain
  · intro constant store
    rfl
  · intro constant rest tail ih store
    rw [List.foldl_cons, Declaration.bind]
    exact ih _

theorem names_of_chain? {constants : List Constant} {chain : Declaration}
    (hchain : Declaration.chain? .dummy (constants.map Constant.declaration) = some chain) :
    chain.names = constants.map Constant.name := by
  refine chain_induction ?_ ?_ hchain
  · intro constant
    rfl
  · intro constant rest tail ih
    rw [Declaration.names, ih]
    rfl

/-! ## A block of constants around a loop -/

/-- A block of constants around a command means what the command means with the constants inlined in
order. -/
theorem run_letIn_chain {I : Interpretation V} {constants : List Constant} {chain : Declaration}
    {command : Command} {span : Span}
    (hchain : Declaration.chain? .dummy (constants.map Constant.declaration) = some chain)
    (hreserved : ∀ constant ∈ constants, Reserved constant.name)
    (hnodup : (constants.map Constant.name).Nodup)
    (hvalues : ∀ constant ∈ constants, constant.value.Tidy)
    (hcommand : command.Tidy)
    (hfree : ∀ constant ∈ constants, ∀ name ∈ constant.value.free, name ∉ command.assigned)
    (rounds : Nat) (store : Store V) :
    (Command.letIn chain command span).run I rounds store =
      (command.inlined (Constant.inOrder constants)).run I rounds store := by
  have hreserved' := Constant.reserved_of_mem_inOrder hreserved
  -- the body starts in a covered store
  have hbind : chain.bind I store =
      Store.overlay (Constant.cover I (Constant.inOrder constants) store) store := by
    rw [bind_of_chain? store hchain]
    exact foldl_update_overlay store [] (by simp)
      (fun constant hmem => ⟨hreserved constant hmem, hvalues constant hmem⟩) hnodup
  have hrun := run_overlay (I := I) rounds hreserved'
    (Constant.forall_value_inOrder (fun value => value.isPlain = true)
      fun constant hmem => (hvalues constant hmem).isPlain)
    command store hcommand
    (Constant.forall_value_inOrder (fun value => ∀ name ∈ value.free, name ∉ command.assigned)
      hfree)
    rfl
  rw [Command.run, hbind, hrun, names_of_chain? hchain, ← Constant.map_name_inOrder]
  cases hfinal : (command.inlined (Constant.inOrder constants)).run I rounds store with
  | none => rfl
  | some final =>
      simp only [Option.map_some, Option.some.injEq]
      refine Store.restore_overlay (fun _ => Constant.cover_eq_none) fun name hname =>
        Command.run_frame I _ hfinal ?_
      -- the names of the constants are reserved, and reserved names are not assigned
      obtain ⟨constant, hmem, rfl⟩ := List.mem_map.mp hname
      rw [Command.assigned_inlined]
      exact fun hassigned => Command.not_reserved_of_assigned _ hcommand.keepsReserved hassigned
        (hreserved' constant hmem)

end LoopHoist
