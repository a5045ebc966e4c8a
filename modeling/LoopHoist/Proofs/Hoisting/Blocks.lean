import LoopHoist.Proofs.Hoisting.Rules

/-!
# The constants of hoisting

Which values leave a loop, under which names, and how the blocks that declare them are found again
in a program.

* `Extracts.constants_eq`: the constants of an extraction are the invariant values of the command in
  the order of its assignments (`Command.values`), numbered on from the names given out before.
* `Declaration.constants?` reads the constants off a declaration all of whose leaves are constants
  with reserved names, and `Command.blocks` lists the loops that stand directly in a block of such
  constants.  In a program without reserved identifiers there are none, so in a hoisted program
  these are the blocks that hoisting added.
* `Command.KeepsReserved` is what the induction over the rules starts from and carries along:
  reserved names are neither assigned nor declared.  They may be read, and after the first
  extraction they are.
-/

namespace LoopHoist

/-! ## Numbered values -/

/-- The values assigned in a command, in the order in which the assignments stand. -/
def Command.values : Command → List Expression
  | .assign _ value _ => [value]
  | .call .. | .skip _ => []
  | .ifThenElse _ thenBranch elseBranch _ => thenBranch.values ++ elseBranch.values
  | .letIn _ body _ | .whileDo _ body _ => body.values
  | .seq first second _ => first.values ++ second.values

/-- Constants for a list of values, under the names that come after the first `issued`. -/
def numbered : Nat → List Expression → List Constant
  | _, [] => []
  | issued, value :: rest => ⟨hoistedName (issued + 1), value⟩ :: numbered (issued + 1) rest

@[simp] theorem length_numbered (values : List Expression) :
    ∀ issued, (numbered issued values).length = values.length := by
  induction values with
  | nil => intro issued; rfl
  | cons value rest ih => intro issued; simp [numbered, ih]

theorem numbered_append (first second : List Expression) :
    ∀ issued, numbered issued (first ++ second) =
      numbered issued first ++ numbered (issued + first.length) second := by
  induction first with
  | nil => intro issued; simp [numbered]
  | cons value rest ih =>
      intro issued
      simp only [List.cons_append, numbered, ih, List.length_cons]
      congr 3
      omega

theorem map_value_numbered (values : List Expression) :
    ∀ issued, (numbered issued values).map Constant.value = values := by
  induction values with
  | nil => intro issued; rfl
  | cons value rest ih => intro issued; simp [numbered, ih]

theorem getElem?_numbered (values : List Expression) :
    ∀ issued i : Nat, (numbered issued values)[i]? =
      values[i]?.map fun value => Constant.mk (hoistedName (issued + i + 1)) value := by
  induction values with
  | nil => intro issued i; simp [numbered]
  | cons value rest ih =>
      intro issued i
      cases i with
      | zero => simp [numbered]
      | succ i =>
          have hindex : issued + 1 + i + 1 = issued + (i + 1) + 1 := by omega
          rw [numbered, List.getElem?_cons_succ, List.getElem?_cons_succ, ih, hindex]

/-- The names of numbered constants come after the first `issued`. -/
theorem exists_name_of_mem_numbered {values : List Expression} {constant : Constant} :
    ∀ {issued}, constant ∈ numbered issued values →
      ∃ n, issued < n ∧ constant.name = hoistedName n := by
  induction values with
  | nil => intro issued hmem; simp [numbered] at hmem
  | cons value rest ih =>
      intro issued hmem
      rcases List.mem_cons.mp hmem with rfl | hrest
      · exact ⟨issued + 1, by omega, rfl⟩
      · obtain ⟨n, hn, hname⟩ := ih hrest
        exact ⟨n, by omega, hname⟩

theorem reserved_of_mem_numbered {values : List Expression} {constant : Constant} {issued : Nat}
    (hmem : constant ∈ numbered issued values) : Reserved constant.name := by
  obtain ⟨n, -, hname⟩ := exists_name_of_mem_numbered hmem
  rw [hname]
  exact reserved_hoistedName n

theorem nodup_names_numbered (values : List Expression) :
    ∀ issued, ((numbered issued values).map Constant.name).Nodup := by
  induction values with
  | nil => intro issued; simp [numbered]
  | cons value rest ih =>
      intro issued
      simp only [numbered, List.map_cons, List.nodup_cons]
      refine ⟨fun hmem => ?_, ih _⟩
      -- a name that comes later has a greater number
      obtain ⟨constant, hconstant, hname⟩ := List.mem_map.mp hmem
      obtain ⟨n, hn, hname'⟩ := exists_name_of_mem_numbered hconstant
      have : n = issued + 1 := hoistedName_injective (hname'.symm.trans hname)
      omega

namespace Extracts

variable {assigned : List String} {issued : Nat} {command command' : Command}
  {constants : List Constant}

/-- The constants of an extraction are the invariant values, numbered in order. -/
theorem constants_eq (hextract : Extracts assigned issued command command' constants) :
    constants = numbered issued (command.values.filter (·.isInvariant assigned)) := by
  induction hextract with
  | taken hvalue => simp [Command.values, hvalue, numbered]
  | left hvalue => simp [Command.values, hvalue, numbered]
  | call | skip => simp [Command.values, numbered]
  | @ifThenElse _ _ first _ _ _ _ _ inFirst _ _ _ ihFirst ihSecond
  | @seq _ first _ _ _ _ _ inFirst _ _ _ ihFirst ihSecond =>
      -- the second part goes on with the numbers where the first one stopped
      have hlength : inFirst.length = (first.values.filter (·.isInvariant assigned)).length := by
        rw [ihFirst, length_numbered]
      rw [Command.values, List.filter_append, numbered_append, ← ihFirst, ← hlength, ← ihSecond]
  | letIn _ ih | whileDo _ ih => exact ih

theorem reserved_name (hextract : Extracts assigned issued command command' constants)
    {constant : Constant} (hmem : constant ∈ constants) : Reserved constant.name := by
  rw [hextract.constants_eq] at hmem
  exact reserved_of_mem_numbered hmem

theorem nodup_names (hextract : Extracts assigned issued command command' constants) :
    (constants.map Constant.name).Nodup := by
  rw [hextract.constants_eq]
  exact nodup_names_numbered _ _

theorem value_mem (hextract : Extracts assigned issued command command' constants)
    {constant : Constant} (hmem : constant ∈ constants) :
    constant.value ∈ command.values ∧ constant.value.isInvariant assigned = true := by
  have hvalue : constant.value ∈ constants.map Constant.value := List.mem_map_of_mem hmem
  rw [hextract.constants_eq, map_value_numbered] at hvalue
  exact List.mem_filter.mp hvalue

theorem assigned_eq (hextract : Extracts assigned issued command command' constants) :
    command'.assigned = command.assigned := by
  induction hextract with
  | taken | left | call | skip => rfl
  | ifThenElse _ _ ihFirst ihSecond | seq _ _ ihFirst ihSecond =>
      simp only [Command.assigned, ihFirst, ihSecond]
  | letIn _ ih | whileDo _ ih => exact ih

end Extracts

theorem Hoists.assigned_eq {command command' : Command} (hhoists : Hoists command command') :
    command'.assigned = command.assigned := by
  induction hhoists with
  | assign | call | skip => rfl
  | ifThenElse _ _ ihFirst ihSecond | seq _ _ ihFirst ihSecond =>
      simp only [Command.assigned, ihFirst, ihSecond]
  | letIn _ ih => exact ih
  | kept hextract _ ih | wrapped hextract _ _ ih => exact ih.trans hextract.assigned_eq

/-! ## Reserved names are only read -/

/-- The constants that a declaration declares, if it declares nothing but constants with reserved
names. -/
def Declaration.constants? : Declaration → Option (List Constant)
  | .const name value _ => if Reserved name.spelling then some [⟨name.spelling, value⟩] else none
  | .seq first second _ => do return (← first.constants?) ++ (← second.constants?)
  | .var .. | .proc .. | .func .. | .type .. | .unaryOperator .. | .binaryOperator .. => none

theorem Declaration.constants?_eq_none :
    ∀ {declaration : Declaration}, (∀ name ∈ declaration.identifiers, ¬ Reserved name) →
      declaration.constants? = none
  | .const name _ _, hnames => by
      have hname := hnames name.spelling (by simp [Declaration.identifiers])
      simp [Declaration.constants?, hname]
  | .seq first second _, hnames => by
      have hfirst : first.constants? = none := Declaration.constants?_eq_none
        fun name hname => hnames name (by simp [Declaration.identifiers, hname])
      simp [Declaration.constants?, hfirst]
  | .var .., _ | .proc .., _ | .func .., _ | .type .., _ | .unaryOperator .., _
  | .binaryOperator .., _ => rfl

/-- Chains of constants are built from the last constant on. -/
@[elab_as_elim]
theorem chain_induction {motive : List Constant → Declaration → Prop}
    (single : ∀ constant, motive [constant] constant.declaration)
    (cons : ∀ constant rest chain, motive rest chain →
      motive (constant :: rest) (.seq constant.declaration chain .dummy)) :
    ∀ {constants : List Constant} {chain : Declaration},
      Declaration.chain? .dummy (constants.map Constant.declaration) = some chain →
      motive constants chain
  | [], _, hchain => by simp [Declaration.chain?] at hchain
  | [constant], chain, hchain => by
      obtain rfl : constant.declaration = chain := by simpa [Declaration.chain?] using hchain
      exact single constant
  | constant :: next :: rest, chain, hchain => by
      simp only [List.map_cons, Declaration.chain?, Option.map_eq_some_iff] at hchain
      obtain ⟨tail, htail, rfl⟩ := hchain
      exact cons constant (next :: rest) tail (chain_induction single cons htail)

/-- The constants of a chain can be read off it. -/
theorem constants?_of_chain? {constants : List Constant} {chain : Declaration}
    (hreserved : ∀ constant ∈ constants, Reserved constant.name)
    (hchain : Declaration.chain? .dummy (constants.map Constant.declaration) = some chain) :
    chain.constants? = some constants := by
  revert hreserved
  refine chain_induction ?_ ?_ hchain
  · intro constant hreserved
    simp [Constant.declaration, Identifier.invented, Declaration.constants?, hreserved]
  · intro constant rest tail ih hreserved
    rw [List.forall_mem_cons] at hreserved
    simp [Constant.declaration, Identifier.invented, Declaration.constants?, ih hreserved.2,
      hreserved.1]

/-- Reserved names are neither assigned nor declared in blocks of constants.  They may be read. -/
def Command.KeepsReserved : Command → Prop
  | .assign target _ _ => ¬ Reserved target.base.spelling
  | .call .. | .skip _ => True
  | .ifThenElse _ thenBranch elseBranch _ => thenBranch.KeepsReserved ∧ elseBranch.KeepsReserved
  | .letIn declaration body _ => declaration.constants? = none ∧ body.KeepsReserved
  | .seq first second _ => first.KeepsReserved ∧ second.KeepsReserved
  | .whileDo _ body _ => body.KeepsReserved

theorem Command.keepsReserved_of_unreserved :
    ∀ command : Command, command.Unreserved → command.KeepsReserved
  | .assign target _ _, hcommand =>
      (Command.unreserved_assign.mp hcommand).1 _ target.base_mem_identifiers
  | .call .., _ | .skip _, _ => trivial
  | .ifThenElse _ thenBranch elseBranch _, hcommand => by
      obtain ⟨-, hthen, helse⟩ := Command.unreserved_ifThenElse.mp hcommand
      exact ⟨thenBranch.keepsReserved_of_unreserved hthen,
        elseBranch.keepsReserved_of_unreserved helse⟩
  | .letIn _ body _, hcommand => by
      obtain ⟨hdeclaration, hbody⟩ := Command.unreserved_letIn.mp hcommand
      exact ⟨Declaration.constants?_eq_none hdeclaration, body.keepsReserved_of_unreserved hbody⟩
  | .seq first second _, hcommand => by
      obtain ⟨hfirst, hsecond⟩ := Command.unreserved_seq.mp hcommand
      exact ⟨first.keepsReserved_of_unreserved hfirst, second.keepsReserved_of_unreserved hsecond⟩
  | .whileDo _ body _, hcommand =>
      body.keepsReserved_of_unreserved (Command.unreserved_whileDo.mp hcommand).2

theorem Command.not_reserved_of_assigned {name : String} :
    ∀ command : Command, command.KeepsReserved → name ∈ command.assigned → ¬ Reserved name
  | .assign target _ _, hcommand, hname => by
      obtain rfl : name = target.base.spelling := by simpa [Command.assigned] using hname
      exact hcommand
  | .call .., _, hname | .skip _, _, hname => by simp [Command.assigned] at hname
  | .ifThenElse _ first second _, hcommand, hname | .seq first second _, hcommand, hname => by
      rcases List.mem_append.mp hname with hfirst | hsecond
      · exact first.not_reserved_of_assigned hcommand.1 hfirst
      · exact second.not_reserved_of_assigned hcommand.2 hsecond
  | .letIn _ body _, hcommand, hname => body.not_reserved_of_assigned hcommand.2 hname
  | .whileDo _ body _, hcommand, hname => body.not_reserved_of_assigned hcommand hname

theorem Extracts.keepsReserved {assigned : List String} {issued : Nat}
    {command command' : Command} {constants : List Constant}
    (hextract : Extracts assigned issued command command' constants)
    (hcommand : command.KeepsReserved) : command'.KeepsReserved := by
  induction hextract with
  -- the targets are those of before, and reading a reserved name is allowed
  | taken | left => exact hcommand
  | call | skip => trivial
  | ifThenElse _ _ ihFirst ihSecond | seq _ _ ihFirst ihSecond =>
      exact ⟨ihFirst hcommand.1, ihSecond hcommand.2⟩
  | letIn _ ih => exact ⟨hcommand.1, ih hcommand.2⟩
  | whileDo _ ih => exact ih hcommand

/-! ## Blocks of constants around loops -/

/-- A loop body together with the constants declared directly around its loop. -/
structure Block where
  constants : List Constant
  body : Command

/-- The loops that stand directly in a block of constants with reserved names. -/
def Command.blocks : Command → List Block
  | .assign .. | .call .. | .skip _ => []
  | .ifThenElse _ thenBranch elseBranch _ => thenBranch.blocks ++ elseBranch.blocks
  | .letIn declaration (.whileDo _ body _) _ =>
      match declaration.constants? with
      | some constants => ⟨constants, body⟩ :: body.blocks
      | none => body.blocks
  | .letIn _ body _ => body.blocks
  | .seq first second _ => first.blocks ++ second.blocks
  | .whileDo _ body _ => body.blocks

theorem Command.blocks_letIn_of_none {declaration : Declaration} {body : Command} {span : Span}
    (hnone : declaration.constants? = none) :
    (Command.letIn declaration body span).blocks = body.blocks := by
  cases body <;> simp [Command.blocks, hnone]

theorem Command.blocks_letIn_whileDo_of_some {declaration : Declaration} {condition : Expression}
    {body : Command} {constants : List Constant} {span span' : Span}
    (hsome : declaration.constants? = some constants) :
    (Command.letIn declaration (.whileDo condition body span) span').blocks =
      ⟨constants, body⟩ :: body.blocks := by
  simp [Command.blocks, hsome]

end LoopHoist
