import LoopHoist.Hoisting.Hoist

/-!
# Reserved names, and the identifiers of a program

Hoisting gives out names that start with `$h`.  What is proved about it holds for programs that
leave those names alone: no identifier anywhere in them, be it of a variable, a field, a routine, a
type or a parameter, is `Reserved`.  `identifiers` lists all of them, in declarations too.

The analyses only ever answer with names that stand in the tree (`free_subset_identifiers`,
`assigned_subset_identifiers`), so a program without reserved identifiers has no reserved name in
any of its answers.
-/

namespace LoopHoist

/-- A name that is kept for the constants of hoisting. -/
def Reserved (name : String) : Prop := "$h".toList <+: name.toList

instance : DecidablePred Reserved := fun _ => inferInstanceAs (Decidable (_ <+: _))

@[simp] theorem reserved_hoistedName (n : Nat) : Reserved (hoistedName n) := by
  simp [Reserved, hoistedName]

theorem hoistedName_notMem_of_not_reserved {names : List String}
    (hnames : ∀ name ∈ names, ¬ Reserved name) (n : Nat) : hoistedName n ∉ names :=
  fun hmem => hnames _ hmem (reserved_hoistedName n)

theorem hoistedName_injective {m n : Nat} (hname : hoistedName m = hoistedName n) : m = n := by
  have hdigits : Nat.toDigits 10 m = Nat.toDigits 10 n := by
    simpa [hoistedName, String.ext_iff] using hname
  -- the digits of a number can be read back
  rw [← Nat.ofDigitChars_ten_toDigits (n := m), hdigits, Nat.ofDigitChars_ten_toDigits]

/-! ## All identifiers of a tree -/

mutual

/-- The identifiers in a type. -/
def TypeDenoter.identifiers : TypeDenoter → List String
  | .simple name => [name.spelling]
  | .array _ element => element.identifiers
  | .record fields => TypeDenoter.identifiersFields fields

/-- The identifiers in the fields of a record type. -/
def TypeDenoter.identifiersFields : List (Identifier × TypeDenoter) → List String
  | [] => []
  | (name, type) :: rest =>
      name.spelling :: (type.identifiers ++ TypeDenoter.identifiersFields rest)

end

mutual

/-- The identifiers in a formal parameter. -/
def FormalParameter.identifiers : FormalParameter → List String
  | .const name type | .var name type => name.spelling :: type.identifiers
  | .proc name parameters => name.spelling :: FormalParameter.identifiersAll parameters
  | .func name parameters result =>
      name.spelling :: (FormalParameter.identifiersAll parameters ++ result.identifiers)

/-- The identifiers in a list of formal parameters. -/
def FormalParameter.identifiersAll : List FormalParameter → List String
  | [] => []
  | parameter :: rest => parameter.identifiers ++ FormalParameter.identifiersAll rest

end

mutual

/-- The identifiers in a value name. -/
def Vname.identifiers : Vname → List String
  | .simple name _ => [name.spelling]
  | .dot base field _ => base.identifiers ++ [field.spelling]
  | .subscript base index _ => base.identifiers ++ index.identifiers

/-- The identifiers in an expression. -/
def Expression.identifiers : Expression → List String
  | .empty _ | .integer .. | .character .. => []
  | .read vname _ => vname.identifiers
  | .unary _ operand _ => operand.identifiers
  | .binary _ left right _ => left.identifiers ++ right.identifiers
  | .ifThenElse condition thenBranch elseBranch _ =>
      condition.identifiers ++ thenBranch.identifiers ++ elseBranch.identifiers
  | .letIn declaration body _ => declaration.identifiers ++ body.identifiers
  | .call function arguments _ => function.spelling :: ActualParameter.identifiersAll arguments
  | .array elements _ => Expression.identifiersAll elements
  | .record fields _ => Expression.identifiersFields fields

/-- The identifiers in a list of expressions. -/
def Expression.identifiersAll : List Expression → List String
  | [] => []
  | element :: rest => element.identifiers ++ Expression.identifiersAll rest

/-- The identifiers in the fields of a record. -/
def Expression.identifiersFields : List (Identifier × Expression) → List String
  | [] => []
  | (name, value) :: rest =>
      name.spelling :: (value.identifiers ++ Expression.identifiersFields rest)

/-- The identifiers in an argument. -/
def ActualParameter.identifiers : ActualParameter → List String
  | .const value => value.identifiers
  | .var vname => vname.identifiers
  | .proc name | .func name => [name.spelling]

/-- The identifiers in the arguments of a call. -/
def ActualParameter.identifiersAll : List ActualParameter → List String
  | [] => []
  | argument :: rest => argument.identifiers ++ ActualParameter.identifiersAll rest

/-- The identifiers in a declaration. -/
def Declaration.identifiers : Declaration → List String
  | .const name value _ => name.spelling :: value.identifiers
  | .var name type _ | .type name type _ => name.spelling :: type.identifiers
  | .proc name parameters body _ =>
      name.spelling :: (FormalParameter.identifiersAll parameters ++ body.identifiers)
  | .func name parameters result body _ =>
      name.spelling ::
        (FormalParameter.identifiersAll parameters ++ result.identifiers ++ body.identifiers)
  | .unaryOperator _ argument result _ => argument.identifiers ++ result.identifiers
  | .binaryOperator _ left right result _ =>
      left.identifiers ++ right.identifiers ++ result.identifiers
  | .seq first second _ => first.identifiers ++ second.identifiers

/-- The identifiers in a command. -/
def Command.identifiers : Command → List String
  | .assign target value _ => target.identifiers ++ value.identifiers
  | .call procedure arguments _ => procedure.spelling :: ActualParameter.identifiersAll arguments
  | .skip _ => []
  | .ifThenElse condition thenBranch elseBranch _ =>
      condition.identifiers ++ thenBranch.identifiers ++ elseBranch.identifiers
  | .letIn declaration body _ => declaration.identifiers ++ body.identifiers
  | .seq first second _ => first.identifiers ++ second.identifiers
  | .whileDo condition body _ => condition.identifiers ++ body.identifiers

end

/-- No identifier of the command is reserved. -/
def Command.Unreserved (command : Command) : Prop :=
  ∀ name ∈ command.identifiers, ¬ Reserved name

instance (command : Command) : Decidable command.Unreserved :=
  inferInstanceAs (Decidable (∀ name ∈ command.identifiers, ¬ Reserved name))

namespace Command

variable {condition value : Expression} {target : Vname} {declaration : Declaration}
  {body thenBranch elseBranch first second : Command} {span : Span}

theorem unreserved_assign : (Command.assign target value span).Unreserved ↔
    (∀ name ∈ target.identifiers, ¬ Reserved name) ∧
      ∀ name ∈ value.identifiers, ¬ Reserved name := by
  simp only [Command.Unreserved, Command.identifiers, List.forall_mem_append]

theorem unreserved_ifThenElse :
    (Command.ifThenElse condition thenBranch elseBranch span).Unreserved ↔
      (∀ name ∈ condition.identifiers, ¬ Reserved name) ∧ thenBranch.Unreserved ∧
        elseBranch.Unreserved := by
  simp only [Command.Unreserved, Command.identifiers, List.forall_mem_append, and_assoc]

theorem unreserved_letIn : (Command.letIn declaration body span).Unreserved ↔
    (∀ name ∈ declaration.identifiers, ¬ Reserved name) ∧ body.Unreserved := by
  simp only [Command.Unreserved, Command.identifiers, List.forall_mem_append]

theorem unreserved_seq : (Command.seq first second span).Unreserved ↔
    first.Unreserved ∧ second.Unreserved := by
  simp only [Command.Unreserved, Command.identifiers, List.forall_mem_append]

theorem unreserved_whileDo : (Command.whileDo condition body span).Unreserved ↔
    (∀ name ∈ condition.identifiers, ¬ Reserved name) ∧ body.Unreserved := by
  simp only [Command.Unreserved, Command.identifiers, List.forall_mem_append]

end Command

/-- No identifier of the program is reserved. -/
def Program.Unreserved (program : Program) : Prop := program.command.Unreserved

instance (program : Program) : Decidable program.Unreserved :=
  inferInstanceAs (Decidable program.command.Unreserved)

/-! ## What the analyses find stands in the tree -/

theorem Vname.base_mem_identifiers : ∀ vname : Vname, vname.base.spelling ∈ vname.identifiers
  | .dot base _ _ | .subscript base _ _ => by
      simp [Vname.base, Vname.identifiers, base.base_mem_identifiers]
  | .simple name _ => by simp [Vname.base, Vname.identifiers]

mutual

theorem Vname.free_subset_identifiers : ∀ vname : Vname, vname.free ⊆ vname.identifiers
  | .simple name _ => by simp [Vname.free, Vname.identifiers]
  | .dot base _ _ => by simp [Vname.free, Vname.identifiers, base.free_subset_identifiers]
  | .subscript base index _ => by
      simp [Vname.free, Vname.identifiers, base.free_subset_identifiers,
        index.free_subset_identifiers]

theorem Expression.free_subset_identifiers :
    ∀ expression : Expression, expression.free ⊆ expression.identifiers
  | .empty _ | .integer .. | .character .. => by simp [Expression.free]
  | .read vname _ => by
      simp [Expression.free, Expression.identifiers, vname.free_subset_identifiers]
  | .unary _ operand _ => by
      simp [Expression.free, Expression.identifiers, operand.free_subset_identifiers]
  | .binary _ left right _ => by
      simp [Expression.free, Expression.identifiers, left.free_subset_identifiers,
        right.free_subset_identifiers]
  | .ifThenElse condition thenBranch elseBranch _ => by
      simp [Expression.free, Expression.identifiers, condition.free_subset_identifiers,
        thenBranch.free_subset_identifiers, elseBranch.free_subset_identifiers]
  | .letIn _ body _ => by
      simp [Expression.free, Expression.identifiers, body.free_subset_identifiers]
  | .call _ arguments _ => by
      simp only [Expression.free, Expression.identifiers]
      exact List.subset_cons_of_subset _ (ActualParameter.freeAll_subset_identifiersAll arguments)
  | .array elements _ => by
      simp [Expression.free, Expression.identifiers,
        Expression.freeAll_subset_identifiersAll elements]
  | .record fields _ => by
      simp [Expression.free, Expression.identifiers,
        Expression.freeFields_subset_identifiersFields fields]

theorem Expression.freeAll_subset_identifiersAll :
    ∀ elements : List Expression,
      Expression.freeAll elements ⊆ Expression.identifiersAll elements
  | [] => by simp [Expression.freeAll]
  | element :: rest => by
      simp [Expression.freeAll, Expression.identifiersAll, element.free_subset_identifiers,
        Expression.freeAll_subset_identifiersAll rest]

theorem Expression.freeFields_subset_identifiersFields :
    ∀ fields : List (Identifier × Expression),
      Expression.freeFields fields ⊆ Expression.identifiersFields fields
  | [] => by simp [Expression.freeFields]
  | (_, value) :: rest => by
      simp only [Expression.freeFields, Expression.identifiersFields]
      refine List.subset_cons_of_subset _ ?_
      simp [value.free_subset_identifiers, Expression.freeFields_subset_identifiersFields rest]

theorem ActualParameter.free_subset_identifiers :
    ∀ argument : ActualParameter, argument.free ⊆ argument.identifiers
  | .const value => by
      simp [ActualParameter.free, ActualParameter.identifiers, value.free_subset_identifiers]
  | .var vname => by
      simp [ActualParameter.free, ActualParameter.identifiers, vname.free_subset_identifiers]
  | .proc _ | .func _ => by simp [ActualParameter.free]

theorem ActualParameter.freeAll_subset_identifiersAll :
    ∀ arguments : List ActualParameter,
      ActualParameter.freeAll arguments ⊆ ActualParameter.identifiersAll arguments
  | [] => by simp [ActualParameter.freeAll]
  | argument :: rest => by
      simp [ActualParameter.freeAll, ActualParameter.identifiersAll,
        argument.free_subset_identifiers, ActualParameter.freeAll_subset_identifiersAll rest]

end

theorem Command.assigned_subset_identifiers :
    ∀ command : Command, command.assigned ⊆ command.identifiers
  | .assign target _ _ => by
      simp [Command.assigned, Command.identifiers, target.base_mem_identifiers]
  | .call .. | .skip _ => by simp [Command.assigned]
  | .ifThenElse _ thenBranch elseBranch _ => by
      simp [Command.assigned, Command.identifiers, thenBranch.assigned_subset_identifiers,
        elseBranch.assigned_subset_identifiers]
  | .letIn _ body _ | .whileDo _ body _ => by
      simp [Command.assigned, Command.identifiers, body.assigned_subset_identifiers]
  | .seq first second _ => by
      simp [Command.assigned, Command.identifiers, first.assigned_subset_identifiers,
        second.assigned_subset_identifiers]

theorem Command.Unreserved.not_reserved_of_assigned {command : Command}
    (hcommand : command.Unreserved) {name : String} (hname : name ∈ command.assigned) :
    ¬ Reserved name :=
  hcommand name (command.assigned_subset_identifiers hname)

end LoopHoist
