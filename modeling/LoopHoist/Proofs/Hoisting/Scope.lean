import LoopHoist.Proofs.Hoisting.Takings
import LoopHoist.Proofs.Meaning.Temporaries

/-!
# Values that leave the scope of what they read

A program is closed when every variable it reads or assigns is bound where it stands: by a
declaration of a block around it, by an earlier declaration of the same chain, or by a parameter.
`unbound` lists the variables that are not.

A loop takes a value out of every block in its body, and the analysis looks at assignments only: a
name that a block in the body declares counts as unchanged.  So a value can leave the block that
binds what it reads.  `closed_optimise_iff` says exactly when: hoisting keeps a closed program
closed if and only if every variable that a taken value reads is bound around the loop that takes it
(`Taking.bound`), and not only inside.

## Strategy

The names that hoisting declares are reserved and the names at stake are not, so the two are looked
at one at a time.  A name that is not reserved is unbound after hoisting exactly when it was unbound
before or is unbound at some loop in a value that the loop takes (`Hoists.notMem_unbound_iff`).  A
name that no block of the program declares is never unbound unless it was before
(`Hoists.mem_unbound`), and that settles the reserved ones.
-/

namespace LoopHoist

/-! ## Unbound variables -/

mutual

/-- The variables of a value name, its indices included, that are not bound in it. -/
def Vname.unbound : Vname → List String
  | .simple name _ => [name.spelling]
  | .dot base _ _ => base.unbound
  | .subscript base index _ => base.unbound ++ index.unbound

/-- The variables that an expression reads without binding them. -/
def Expression.unbound : Expression → List String
  | .empty _ | .integer .. | .character .. => []
  | .read vname _ => vname.unbound
  | .unary _ operand _ => operand.unbound
  | .binary _ left right _ => left.unbound ++ right.unbound
  | .ifThenElse condition thenBranch elseBranch _ =>
      condition.unbound ++ thenBranch.unbound ++ elseBranch.unbound
  | .letIn declaration body _ =>
      declaration.unbound ++ body.unbound.filter (· ∉ declaration.names)
  | .call _ arguments _ => ActualParameter.unboundAll arguments
  | .array elements _ => Expression.unboundAll elements
  | .record fields _ => Expression.unboundFields fields

/-- The variables that a list of expressions reads without binding them. -/
def Expression.unboundAll : List Expression → List String
  | [] => []
  | element :: rest => element.unbound ++ Expression.unboundAll rest

/-- The variables that the fields of a record read without binding them. -/
def Expression.unboundFields : List (Identifier × Expression) → List String
  | [] => []
  | (_, value) :: rest => value.unbound ++ Expression.unboundFields rest

/-- The variables of an argument that are not bound in it. -/
def ActualParameter.unbound : ActualParameter → List String
  | .const value => value.unbound
  | .var vname => vname.unbound
  | .proc _ | .func _ => []

/-- The variables of the arguments of a call that are not bound in them. -/
def ActualParameter.unboundAll : List ActualParameter → List String
  | [] => []
  | argument :: rest => argument.unbound ++ ActualParameter.unboundAll rest

/-- The variables that a declaration reads or assigns without binding them.  The parameters of a
routine are bound in its body, and the names of a chain in what comes after them. -/
def Declaration.unbound : Declaration → List String
  | .const _ value _ => value.unbound
  | .proc _ parameters body _ => body.unbound.filter (· ∉ parameters.map (·.name.spelling))
  | .func _ parameters _ body _ => body.unbound.filter (· ∉ parameters.map (·.name.spelling))
  | .var .. | .type .. | .unaryOperator .. | .binaryOperator .. => []
  | .seq first second _ => first.unbound ++ second.unbound.filter (· ∉ first.names)

/-- The variables that a command reads or assigns without binding them. -/
def Command.unbound : Command → List String
  | .assign target value _ => target.unbound ++ value.unbound
  | .call _ arguments _ => ActualParameter.unboundAll arguments
  | .skip _ => []
  | .ifThenElse condition thenBranch elseBranch _ =>
      condition.unbound ++ thenBranch.unbound ++ elseBranch.unbound
  | .letIn declaration body _ =>
      declaration.unbound ++ body.unbound.filter (· ∉ declaration.names)
  | .seq first second _ => first.unbound ++ second.unbound
  | .whileDo condition body _ => condition.unbound ++ body.unbound

end

/-- Every variable of the program is bound where it is read or assigned. -/
def Program.Closed (program : Program) : Prop := program.command.unbound = []

instance (program : Program) : Decidable program.Closed :=
  inferInstanceAs (Decidable (program.command.unbound = []))

/-! ## Names declared in commands -/

/-- The names that the blocks of a command declare. -/
def Command.declared : Command → List String
  | .assign .. | .call .. | .skip _ => []
  | .ifThenElse _ thenBranch elseBranch _ => thenBranch.declared ++ elseBranch.declared
  | .letIn declaration body _ => declaration.names ++ body.declared
  | .seq first second _ => first.declared ++ second.declared
  | .whileDo _ body _ => body.declared

theorem Declaration.names_subset_identifiers :
    ∀ declaration : Declaration, declaration.names ⊆ declaration.identifiers
  | .const .. | .var .. | .proc .. | .func .. | .type .. => by
      simp [Declaration.names, Declaration.identifiers]
  | .unaryOperator .. | .binaryOperator .. => by simp [Declaration.names]
  | .seq first second _ => by
      simp [Declaration.names, Declaration.identifiers, first.names_subset_identifiers,
        second.names_subset_identifiers]

theorem Command.declared_subset_identifiers :
    ∀ command : Command, command.declared ⊆ command.identifiers
  | .assign .. | .call .. | .skip _ => by simp [Command.declared]
  | .ifThenElse _ first second _ | .seq first second _ => by
      simp [Command.declared, Command.identifiers, first.declared_subset_identifiers,
        second.declared_subset_identifiers]
  | .letIn declaration body _ => by
      simp [Command.declared, Command.identifiers, declaration.names_subset_identifiers,
        body.declared_subset_identifiers]
  | .whileDo _ body _ => by
      simp [Command.declared, Command.identifiers, body.declared_subset_identifiers]

/-- A variable of a value in a command is unbound in the command or declared by one of its blocks.
-/
theorem Command.mem_unbound_or_declared {value : Expression} {name : String}
    (hname : name ∈ value.unbound) :
    ∀ command : Command, value ∈ command.values →
      name ∈ command.unbound ∨ name ∈ command.declared
  | .assign .., hvalue => by
      obtain rfl := List.mem_singleton.mp hvalue
      exact .inl (List.mem_append_right _ hname)
  | .call .., hvalue | .skip _, hvalue => by simp [Command.values] at hvalue
  | .ifThenElse _ first second _, hvalue | .seq first second _, hvalue => by
      have hfirst := first.mem_unbound_or_declared hname
      have hsecond := second.mem_unbound_or_declared hname
      simp only [Command.values, Command.unbound, Command.declared, List.mem_append] at hvalue ⊢
      grind
  | .letIn declaration body _, hvalue => by
      have hbody := body.mem_unbound_or_declared hname hvalue
      simp only [Command.unbound, Command.declared, List.mem_append, List.mem_filter,
        decide_eq_true_eq]
      grind
  | .whileDo _ body _, hvalue =>
      (body.mem_unbound_or_declared hname hvalue).imp_left (List.mem_append_right _)

/-! ## Unbound variables after an extraction -/

namespace Extracts

variable {assigned : List String} {issued : Nat} {command command' : Command}
  {constants : List Constant} {name : String}

theorem declared_eq (hextract : Extracts assigned issued command command' constants) :
    command'.declared = command.declared := by
  induction hextract with
  | taken | left | call | skip => rfl
  | ifThenElse _ _ ihFirst ihSecond | seq _ _ ihFirst ihSecond =>
      simp only [Command.declared, ihFirst, ihSecond]
  | letIn _ ih => simp only [Command.declared, ih]
  | whileDo _ ih => exact ih

/-- An extraction adds the names of its constants to the unbound variables of a command. -/
theorem mem_unbound (hextract : Extracts assigned issued command command' constants)
    (hname : name ∈ command'.unbound) :
    name ∈ command.unbound ∨ name ∈ constants.map Constant.name := by
  induction hextract with
  | taken =>
      simp only [Command.unbound, Constant.reading, Expression.unbound, Vname.unbound,
        Identifier.invented, List.mem_append, List.mem_singleton] at hname
      rcases hname with htarget | rfl
      · exact .inl (List.mem_append_left _ htarget)
      · simp
  | left | call | skip => exact .inl hname
  | ifThenElse _ _ ihFirst ihSecond | seq _ _ ihFirst ihSecond =>
      simp only [Command.unbound, List.mem_append, List.map_append] at hname ⊢
      grind
  | letIn _ ih =>
      simp only [Command.unbound, List.mem_append, List.mem_filter] at hname ⊢
      grind
  | whileDo _ ih =>
      simp only [Command.unbound, List.mem_append] at hname ⊢
      grind

/-- An extraction takes variables away from a command only with the values that read them. -/
theorem mem_unbound_or (hextract : Extracts assigned issued command command' constants)
    (hname : name ∈ command.unbound) :
    name ∈ command'.unbound ∨ ∃ constant ∈ constants, name ∈ constant.value.unbound := by
  induction hextract with
  | taken =>
      rcases List.mem_append.mp hname with htarget | hvalue
      · exact .inl (List.mem_append_left _ htarget)
      · exact .inr ⟨_, List.mem_singleton.mpr rfl, hvalue⟩
  | left | call | skip => exact .inl hname
  | ifThenElse _ _ ihFirst ihSecond | seq _ _ ihFirst ihSecond =>
      simp only [Command.unbound, List.mem_append, or_and_right, exists_or] at hname ⊢
      grind
  | letIn _ ih =>
      simp only [Command.unbound, List.mem_append, List.mem_filter] at hname ⊢
      grind
  | whileDo _ ih =>
      simp only [Command.unbound, List.mem_append] at hname ⊢
      grind

/-- If no constant reads a name and none has it, an extraction does not change whether it is
unbound. -/
theorem notMem_unbound_iff (hextract : Extracts assigned issued command command' constants)
    (hconstants : name ∉ constants.map Constant.name)
    (hvalues : ∀ constant ∈ constants, name ∉ constant.value.unbound) :
    name ∉ command'.unbound ↔ name ∉ command.unbound := by
  refine not_congr ⟨fun hname => ?_, fun hname => ?_⟩
  · exact (hextract.mem_unbound hname).resolve_right hconstants
  · refine (hextract.mem_unbound_or hname).resolve_right ?_
    rintro ⟨constant, hmem, hvalue⟩
    exact hvalues constant hmem hvalue

end Extracts

/-! ## Unbound variables after hoisting -/

/-- A variable that is unbound in a chain of constants is unbound in the value of one of them, and
the other way round if the chain does not declare it. -/
theorem unbound_chain {constants : List Constant} {chain : Declaration} (name : String)
    (hchain : Declaration.chain? .dummy (constants.map Constant.declaration) = some chain) :
    (name ∈ chain.unbound → ∃ constant ∈ constants, name ∈ constant.value.unbound) ∧
      (name ∉ constants.map Constant.name → name ∉ chain.unbound →
        ∀ constant ∈ constants, name ∉ constant.value.unbound) := by
  refine chain_induction ?_ ?_ hchain
  · intro constant
    simp [Constant.declaration, Declaration.unbound]
  · intro constant rest tail ih
    simp only [Constant.declaration, Declaration.unbound, Declaration.names, Identifier.invented,
      List.mem_append, List.mem_filter, List.map_cons, List.mem_cons, decide_eq_true_eq] at ih ⊢
    grind

theorem notMem_unbound_chain_iff {constants : List Constant} {chain : Declaration} {name : String}
    (hchain : Declaration.chain? .dummy (constants.map Constant.declaration) = some chain)
    (hname : name ∉ constants.map Constant.name) :
    name ∉ chain.unbound ↔ ∀ constant ∈ constants, name ∉ constant.value.unbound := by
  refine ⟨(unbound_chain name hchain).2 hname, fun hvalues hmem => ?_⟩
  obtain ⟨constant, hconstant, hvalue⟩ := (unbound_chain name hchain).1 hmem
  exact hvalues constant hconstant hvalue

namespace Hoists

variable {command command' : Command} {name : String}

/-- Hoisting adds no unbound variable but one that a block of the command declares. -/
theorem mem_unbound (hhoists : Hoists command command') (hdeclared : name ∉ command.declared)
    (hname : name ∈ command'.unbound) : name ∈ command.unbound := by
  induction hhoists with
  | assign | call | skip => exact hname
  | ifThenElse _ _ ihFirst ihSecond | seq _ _ ihFirst ihSecond =>
      simp only [Command.unbound, Command.declared, List.mem_append] at hname hdeclared ⊢
      grind
  | letIn _ ih =>
      simp only [Command.unbound, Command.declared, List.mem_append, List.mem_filter]
        at hname hdeclared ⊢
      grind
  | kept hextract _ ih =>
      rw [Command.declared, ← hextract.declared_eq] at hdeclared
      rcases List.mem_append.mp hname with hcondition | hbody
      · exact List.mem_append_left _ hcondition
      · have hmiddle := hextract.mem_unbound (ih hdeclared hbody)
        exact List.mem_append_right _ (by simpa using hmiddle)
  | wrapped hextract hchain _ ih =>
      rw [Command.declared] at hdeclared
      simp only [Command.unbound, List.mem_append, List.mem_filter, names_of_chain? hchain,
        decide_eq_true_eq] at hname ⊢
      rcases hname with hconstant | ⟨hcondition | hbody, hfresh⟩
      · -- what a constant reads was read by a value in the body
        obtain ⟨constant, hmem, hvalue⟩ := (unbound_chain name hchain).1 hconstant
        have hread := Command.mem_unbound_or_declared hvalue _ (hextract.value_mem hmem).1
        exact .inr (hread.resolve_right hdeclared)
      · exact .inl hcondition
      · rw [← hextract.declared_eq] at hdeclared
        exact .inr ((hextract.mem_unbound (ih hdeclared hbody)).resolve_right hfresh)

/-- A name that is not reserved is bound everywhere after hoisting exactly when it was before and
every loop that takes a value with it stands where it is bound. -/
theorem notMem_unbound_iff (hhoists : Hoists command command') (hname : ¬ Reserved name) :
    name ∉ command'.unbound ↔ name ∉ command.unbound ∧
      ∀ taking ∈ command.takings, name ∈ taking.value.unbound → name ∈ taking.bound := by
  -- reads of constants do not have the name, and what is bound nowhere around a loop is not bound
  have hread : ∀ taking : Taking, taking.value.isReading = true →
      name ∈ taking.value.unbound → name ∈ taking.bound := by
    rintro ⟨bound, value⟩ hreading hmem
    obtain ⟨read, span, span', rfl, hreserved⟩ := Expression.exists_of_isReading hreading
    obtain rfl : name = read.spelling := List.mem_singleton.mp hmem
    exact absurd hreserved hname
  have hbound : ∀ bound value, (name ∈ value.unbound → name ∈ (Taking.mk [] value).bound) →
      name ∈ value.unbound → name ∈ (Taking.mk bound value).bound := by
    intro bound value hnowhere hmem
    exact absurd (hnowhere hmem) List.not_mem_nil
  induction hhoists with
  | assign | call | skip => simp [Command.unbound, Command.takings]
  | ifThenElse _ _ ihFirst ihSecond | seq _ _ ihFirst ihSecond =>
      simp only [Command.unbound, Command.takings, List.mem_append, not_or, ihFirst, ihSecond]
      grind
  | letIn _ ih =>
      simp only [Command.unbound, Command.takings, List.mem_append, List.mem_filter, not_or,
        List.forall_mem_map, decide_eq_true_eq]
      grind
  | kept hextract _ ih =>
      rw [hextract.forall_takings_whileDo_iff _ hread hbound]
      have hleft := hextract.notMem_unbound_iff (List.not_mem_nil (a := name)) (by simp)
      simp only [Command.unbound, List.mem_append, not_or, ih, hleft]
      simp [and_assoc]
  | wrapped hextract hchain _ ih =>
      rw [hextract.forall_takings_whileDo_iff _ hread hbound]
      have hfresh := notMem_names_of_not_reserved (fun _ => hextract.reserved_name) hname
      have hconstants := notMem_unbound_chain_iff hchain hfresh
      -- where no constant reads the name, the body has it before the extraction and after alike
      have hleft := hextract.notMem_unbound_iff hfresh
      simp only [Command.unbound, List.mem_append, List.mem_filter, names_of_chain? hchain, not_or,
        decide_eq_true_eq, hconstants]
      grind

end Hoists

/-! ## Closed programs -/

/-- **When hoisting keeps a program closed.**  The hoisted form of a closed program is closed
exactly when every variable of a value that a loop takes is bound where the loop stands. -/
theorem closed_optimise_iff (program : Program) (hclosed : program.Closed)
    (hprogram : program.Unreserved) :
    program.optimise.Closed ↔
      ∀ taking ∈ program.command.takings, ∀ name ∈ taking.value.unbound, name ∈ taking.bound := by
  have hhoists := hoists_hoisted program.command
  have hdeclared : ∀ name ∈ program.command.declared, ¬ Reserved name := fun name hname =>
    hprogram name (program.command.declared_subset_identifiers hname)
  rw [Program.Closed] at hclosed
  rw [Program.Closed, Program.optimise_command, List.eq_nil_iff_forall_not_mem]
  constructor
  · intro hoptimised taking hmem name hname
    have hvalue := (program.command.of_mem_takings hmem).1
    -- the program is closed, so one of its blocks declares what the value reads
    have hsource := Command.mem_unbound_or_declared hname _ hvalue
    rw [hclosed] at hsource
    have hplain := hdeclared name (hsource.resolve_left List.not_mem_nil)
    exact ((hhoists.notMem_unbound_iff hplain).mp (hoptimised name)).2 taking hmem hname
  · intro hbound name
    by_cases hname : name ∈ program.command.declared
    · refine (hhoists.notMem_unbound_iff (hdeclared name hname)).mpr ⟨?_, fun taking hmem => ?_⟩
      · simp [hclosed]
      · exact hbound taking hmem name
    · intro hunbound
      -- a name that no block declares was unbound before
      have hsource := hhoists.mem_unbound hname hunbound
      rw [hclosed] at hsource
      exact List.not_mem_nil hsource

open Sketch

/-- A nest in which the inner loop takes `k + x`, with `k` from a block around it, and the outer one
only takes `i`:

```
let var c : Integer; var d : Integer; var i : Integer; var x : Integer; var y : Integer in
  while c do
    let const k ~ i in
      begin x := x + 1; d := i; while d do y := k + x end
``` -/
def guardedNest : Program :=
  ⟨block [integer "c", integer "d", integer "i", integer "x", integer "y"]
    (loop (var "c")
      [block [const "k" (var "i")]
        (.seqAll .dummy
          [assign "x" (binary (var "x") "+" (int "1")), assign "d" (var "i"),
            loop (var "d") [assign "y" (binary (var "k") "+" (var "x"))]])]), .dummy⟩

theorem closed_optimise_iff_guardedNest :
    guardedNest.Closed ∧ guardedNest.Unreserved ∧
      guardedNest.command.takings.map (fun taking => (taking.value.unbound, taking.bound)) =
        [(["i"], ["c", "d", "i", "x", "y"]), (["k", "x"], ["c", "d", "i", "x", "y", "k"])] ∧
      guardedNest.optimise.Closed :=
  ⟨by decide, by decide, by decide,
    (closed_optimise_iff guardedNest (by decide) (by decide)).mpr (by decide)⟩

/-- `let var c : Integer; var i : Integer; var x : Integer in while c do let const k ~ i in x := k`.
-/
def escapingLoop : Program :=
  ⟨block [integer "c", integer "i", integer "x"]
    (loop (var "c") [block [const "k" (var "i")] (assign "x" (var "k"))]), .dummy⟩

/-- The read of `k` leaves the block that binds `k`. -/
theorem escapingLoop_optimise_not_closed :
    escapingLoop.Closed ∧ escapingLoop.Unreserved ∧
      escapingLoop.optimise.command.unbound = ["k"] ∧ ¬ escapingLoop.optimise.Closed :=
  ⟨by decide, by decide, by decide +kernel, by decide +kernel⟩

end LoopHoist
