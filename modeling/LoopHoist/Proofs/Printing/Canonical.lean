import LoopHoist.Triangle.Printer
import Mathlib.Data.List.Basic

/-!
# Trees up to places and nesting

The text of a program does not show everything about its tree.  Places are not printed, and neither
is whether `c₁; c₂; c₃` was built from the left or from the right.  The canonical form of a tree is
the tree without its places and with all sequences nested to the right, so that two trees have the
same canonical form if they differ in these two respects only.

What is left of a tree has the same text (`Program.print_canonical`), and a sequence is given by the
list of its parts.  `Command.canonical_eq_seqAll` and `Declaration.chain?_parts` say how its
canonical form is built from them, `Command.print_eq_intercalate` and
`Declaration.print_eq_intercalate` how its text is.
-/

namespace LoopHoist

/-! ## Sequences -/

/-- One command after another, nested to the right. -/
def Command.andThen : Command → Command → Command
  | .seq first second _, last => .seq first (second.andThen last) .dummy
  | first, last => .seq first last .dummy

/-- One declaration after another, nested to the right. -/
def Declaration.andThen : Declaration → Declaration → Declaration
  | .seq first second _, last => .seq first (second.andThen last) .dummy
  | first, last => .seq first last .dummy

/-- The parts of a command that are run one after the other. -/
def Command.parts : Command → List Command
  | .seq first second _ => first.parts ++ second.parts
  | command => [command]

/-- The parts of a declaration that stand one after the other. -/
def Declaration.parts : Declaration → List Declaration
  | .seq first second _ => first.parts ++ second.parts
  | declaration => [declaration]

/-! ## Canonical forms -/

/-- A leaf without its place. -/
def Terminal.canonical {sort : Lexeme} (leaf : Terminal sort) : Terminal sort :=
  ⟨leaf.spelling, .dummy⟩

mutual

/-- The canonical form of a type. -/
def TypeDenoter.canonical : TypeDenoter → TypeDenoter
  | .simple name => .simple name.canonical
  | .array length element => .array length.canonical element.canonical
  | .record fields => .record (TypeDenoter.canonicalFields fields)

/-- The canonical forms of the fields of a record type. -/
def TypeDenoter.canonicalFields : List (Identifier × TypeDenoter) → List (Identifier × TypeDenoter)
  | [] => []
  | (name, type) :: rest => (name.canonical, type.canonical) :: TypeDenoter.canonicalFields rest

end

mutual

/-- The canonical form of a formal parameter. -/
def FormalParameter.canonical : FormalParameter → FormalParameter
  | .const name type => .const name.canonical type.canonical
  | .var name type => .var name.canonical type.canonical
  | .proc name parameters => .proc name.canonical (FormalParameter.canonicalAll parameters)
  | .func name parameters result =>
      .func name.canonical (FormalParameter.canonicalAll parameters) result.canonical

/-- The canonical forms of the parameters of a procedure or function. -/
def FormalParameter.canonicalAll : List FormalParameter → List FormalParameter
  | [] => []
  | parameter :: rest => parameter.canonical :: FormalParameter.canonicalAll rest

end

mutual

/-- The canonical form of a value name. -/
def Vname.canonical : Vname → Vname
  | .simple name _ => .simple name.canonical .dummy
  | .dot base field _ => .dot base.canonical field.canonical .dummy
  | .subscript base index _ => .subscript base.canonical index.canonical .dummy

/-- The canonical form of an expression. -/
def Expression.canonical : Expression → Expression
  | .empty _ => .empty .dummy
  | .integer literal _ => .integer literal.canonical .dummy
  | .character literal _ => .character literal.canonical .dummy
  | .read vname _ => .read vname.canonical .dummy
  | .unary operator operand _ => .unary operator.canonical operand.canonical .dummy
  | .binary operator left right _ =>
      .binary operator.canonical left.canonical right.canonical .dummy
  | .ifThenElse condition thenBranch elseBranch _ =>
      .ifThenElse condition.canonical thenBranch.canonical elseBranch.canonical .dummy
  | .letIn declaration body _ => .letIn declaration.canonical body.canonical .dummy
  | .call function arguments _ =>
      .call function.canonical (ActualParameter.canonicalAll arguments) .dummy
  | .array elements _ => .array (Expression.canonicalAll elements) .dummy
  | .record fields _ => .record (Expression.canonicalFields fields) .dummy

/-- The canonical forms of a list of expressions. -/
def Expression.canonicalAll : List Expression → List Expression
  | [] => []
  | element :: rest => element.canonical :: Expression.canonicalAll rest

/-- The canonical forms of the fields of a record. -/
def Expression.canonicalFields : List (Identifier × Expression) → List (Identifier × Expression)
  | [] => []
  | (name, value) :: rest => (name.canonical, value.canonical) :: Expression.canonicalFields rest

/-- The canonical form of an argument. -/
def ActualParameter.canonical : ActualParameter → ActualParameter
  | .const value => .const value.canonical
  | .var vname => .var vname.canonical
  | .proc name => .proc name.canonical
  | .func name => .func name.canonical

/-- The canonical forms of the arguments of a call. -/
def ActualParameter.canonicalAll : List ActualParameter → List ActualParameter
  | [] => []
  | argument :: rest => argument.canonical :: ActualParameter.canonicalAll rest

/-- The canonical form of a declaration. -/
def Declaration.canonical : Declaration → Declaration
  | .const name value _ => .const name.canonical value.canonical .dummy
  | .var name type _ => .var name.canonical type.canonical .dummy
  | .proc name parameters body _ =>
      .proc name.canonical (FormalParameter.canonicalAll parameters) body.canonical .dummy
  | .func name parameters result body _ =>
      .func name.canonical (FormalParameter.canonicalAll parameters) result.canonical
        body.canonical .dummy
  | .type name type _ => .type name.canonical type.canonical .dummy
  | .unaryOperator operator argument result _ =>
      .unaryOperator operator.canonical argument.canonical result.canonical .dummy
  | .binaryOperator operator left right result _ =>
      .binaryOperator operator.canonical left.canonical right.canonical result.canonical .dummy
  | .seq first second _ => first.canonical.andThen second.canonical

/-- The canonical form of a command. -/
def Command.canonical : Command → Command
  | .assign target value _ => .assign target.canonical value.canonical .dummy
  | .call procedure arguments _ =>
      .call procedure.canonical (ActualParameter.canonicalAll arguments) .dummy
  | .skip _ => .skip .dummy
  | .ifThenElse condition thenBranch elseBranch _ =>
      .ifThenElse condition.canonical thenBranch.canonical elseBranch.canonical .dummy
  | .letIn declaration body _ => .letIn declaration.canonical body.canonical .dummy
  | .seq first second _ => first.canonical.andThen second.canonical
  | .whileDo condition body _ => .whileDo condition.canonical body.canonical .dummy

end

/-- The canonical form of a program. -/
def Program.canonical (program : Program) : Program := ⟨program.command.canonical, .dummy⟩

/-! ## The text of a canonical form -/

theorem Command.print_andThen : ∀ first last : Command,
    (first.andThen last).print = first.print ++ "; " ++ last.print
  | .seq first second _, last => by
      have hsecond := second.print_andThen last
      simp only [Command.andThen, Command.print, hsecond, String.append_assoc]
  | .assign .., _ | .call .., _ | .skip _, _ | .ifThenElse .., _ | .letIn .., _
  | .whileDo .., _ => rfl

theorem Declaration.print_andThen : ∀ first last : Declaration,
    (first.andThen last).print = first.print ++ "; " ++ last.print
  | .seq first second _, last => by
      have hsecond := second.print_andThen last
      simp only [Declaration.andThen, Declaration.print, hsecond, String.append_assoc]
  | .const .., _ | .var .., _ | .proc .., _ | .func .., _ | .type .., _ | .unaryOperator .., _
  | .binaryOperator .., _ => rfl

theorem Expression.bracketed_canonical (operand : Expression) (text : String) :
    operand.canonical.bracketed text = operand.bracketed text := by
  cases operand <;> rfl

theorem Command.bracketed_canonical (command : Command) (text : String) :
    command.canonical.bracketed text = command.bracketed text := by
  cases command with
  | seq first second _ =>
      -- a sequence stays one, whichever way it is nested
      simp only [Command.canonical, Command.bracketed]
      cases first.canonical <;> rfl
  | _ => rfl

mutual

theorem TypeDenoter.print_canonical : ∀ type : TypeDenoter, type.canonical.print = type.print
  | .simple _ => rfl
  | .array _ element => by
      simp only [TypeDenoter.canonical, TypeDenoter.print, element.print_canonical,
        Terminal.canonical]
  | .record fields => by
      simp only [TypeDenoter.canonical, TypeDenoter.print,
        TypeDenoter.printFields_canonicalFields fields]

theorem TypeDenoter.printFields_canonicalFields : ∀ fields : List (Identifier × TypeDenoter),
    TypeDenoter.printFields (TypeDenoter.canonicalFields fields) = TypeDenoter.printFields fields
  | [] => rfl
  | (_, type) :: rest => by
      simp only [TypeDenoter.canonicalFields, TypeDenoter.printFields, type.print_canonical,
        TypeDenoter.printFields_canonicalFields rest, Terminal.canonical]

end

mutual

theorem FormalParameter.print_canonical : ∀ parameter : FormalParameter,
    parameter.canonical.print = parameter.print
  | .const _ type | .var _ type => by
      simp only [FormalParameter.canonical, FormalParameter.print, type.print_canonical,
        Terminal.canonical]
  | .proc _ parameters => by
      simp only [FormalParameter.canonical, FormalParameter.print,
        FormalParameter.printAll_canonicalAll parameters, Terminal.canonical]
  | .func _ parameters result => by
      simp only [FormalParameter.canonical, FormalParameter.print,
        FormalParameter.printAll_canonicalAll parameters, result.print_canonical,
        Terminal.canonical]

theorem FormalParameter.printAll_canonicalAll : ∀ parameters : List FormalParameter,
    FormalParameter.printAll (FormalParameter.canonicalAll parameters) =
      FormalParameter.printAll parameters
  | [] => rfl
  | parameter :: rest => by
      simp only [FormalParameter.canonicalAll, FormalParameter.printAll,
        parameter.print_canonical, FormalParameter.printAll_canonicalAll rest]

end

mutual

theorem Vname.print_canonical : ∀ vname : Vname, vname.canonical.print = vname.print
  | .simple .. => rfl
  | .dot base _ _ => by
      simp only [Vname.canonical, Vname.print, base.print_canonical, Terminal.canonical]
  | .subscript base index _ => by
      simp only [Vname.canonical, Vname.print, base.print_canonical, index.print_canonical]

theorem Expression.print_canonical : ∀ expression : Expression,
    expression.canonical.print = expression.print
  | .empty _ | .integer .. | .character .. => rfl
  | .read vname _ => vname.print_canonical
  | .unary _ operand _ => by
      simp only [Expression.canonical, Expression.print, operand.print_canonical,
        operand.bracketed_canonical, Terminal.canonical]
  | .binary _ left right _ => by
      simp only [Expression.canonical, Expression.print, left.print_canonical,
        left.bracketed_canonical, right.print_canonical, right.bracketed_canonical,
        Terminal.canonical]
  | .ifThenElse condition thenBranch elseBranch _ => by
      simp only [Expression.canonical, Expression.print, condition.print_canonical,
        thenBranch.print_canonical, elseBranch.print_canonical]
  | .letIn declaration body _ => by
      simp only [Expression.canonical, Expression.print, declaration.print_canonical,
        body.print_canonical]
  | .call _ arguments _ => by
      simp only [Expression.canonical, Expression.print,
        ActualParameter.printAll_canonicalAll arguments, Terminal.canonical]
  | .array elements _ => by
      simp only [Expression.canonical, Expression.print,
        Expression.printAll_canonicalAll elements]
  | .record fields _ => by
      simp only [Expression.canonical, Expression.print,
        Expression.printFields_canonicalFields fields]

theorem Expression.printAll_canonicalAll : ∀ elements : List Expression,
    Expression.printAll (Expression.canonicalAll elements) = Expression.printAll elements
  | [] => rfl
  | element :: rest => by
      simp only [Expression.canonicalAll, Expression.printAll, element.print_canonical,
        Expression.printAll_canonicalAll rest]

theorem Expression.printFields_canonicalFields : ∀ fields : List (Identifier × Expression),
    Expression.printFields (Expression.canonicalFields fields) = Expression.printFields fields
  | [] => rfl
  | (_, value) :: rest => by
      simp only [Expression.canonicalFields, Expression.printFields, value.print_canonical,
        Expression.printFields_canonicalFields rest, Terminal.canonical]

theorem ActualParameter.print_canonical : ∀ argument : ActualParameter,
    argument.canonical.print = argument.print
  | .const value => value.print_canonical
  | .var vname => by
      simp only [ActualParameter.canonical, ActualParameter.print, vname.print_canonical]
  | .proc _ | .func _ => rfl

theorem ActualParameter.printAll_canonicalAll : ∀ arguments : List ActualParameter,
    ActualParameter.printAll (ActualParameter.canonicalAll arguments) =
      ActualParameter.printAll arguments
  | [] => rfl
  | argument :: rest => by
      simp only [ActualParameter.canonicalAll, ActualParameter.printAll, argument.print_canonical,
        ActualParameter.printAll_canonicalAll rest]

theorem Declaration.print_canonical : ∀ declaration : Declaration,
    declaration.canonical.print = declaration.print
  | .const _ value _ => by
      simp only [Declaration.canonical, Declaration.print, value.print_canonical,
        Terminal.canonical]
  | .var _ type _ | .type _ type _ => by
      simp only [Declaration.canonical, Declaration.print, type.print_canonical,
        Terminal.canonical]
  | .proc _ parameters body _ => by
      simp only [Declaration.canonical, Declaration.print, FormalParameter.printList,
        FormalParameter.printAll_canonicalAll parameters, body.print_canonical,
        body.bracketed_canonical, Terminal.canonical]
  | .func _ parameters result body _ => by
      simp only [Declaration.canonical, Declaration.print, FormalParameter.printList,
        FormalParameter.printAll_canonicalAll parameters, result.print_canonical,
        body.print_canonical, Terminal.canonical]
  | .unaryOperator _ argument result _ => by
      simp only [Declaration.canonical, Declaration.print, argument.print_canonical,
        result.print_canonical, Terminal.canonical]
  | .binaryOperator _ left right result _ => by
      simp only [Declaration.canonical, Declaration.print, left.print_canonical,
        right.print_canonical, result.print_canonical, Terminal.canonical]
  | .seq first second _ => by
      simp only [Declaration.canonical, Declaration.print, Declaration.print_andThen,
        first.print_canonical, second.print_canonical]

theorem Command.print_canonical : ∀ command : Command, command.canonical.print = command.print
  | .assign target value _ => by
      simp only [Command.canonical, Command.print, target.print_canonical, value.print_canonical]
  | .call _ arguments _ => by
      simp only [Command.canonical, Command.print,
        ActualParameter.printAll_canonicalAll arguments, Terminal.canonical]
  | .skip _ => rfl
  | .ifThenElse condition thenBranch elseBranch _ => by
      simp only [Command.canonical, Command.print, condition.print_canonical,
        thenBranch.print_canonical, thenBranch.bracketed_canonical, elseBranch.print_canonical,
        elseBranch.bracketed_canonical]
  | .letIn declaration body _ => by
      simp only [Command.canonical, Command.print, declaration.print_canonical,
        body.print_canonical, body.bracketed_canonical]
  | .seq first second _ => by
      simp only [Command.canonical, Command.print, Command.print_andThen, first.print_canonical,
        second.print_canonical]
  | .whileDo condition body _ => by
      simp only [Command.canonical, Command.print, condition.print_canonical,
        body.print_canonical, body.bracketed_canonical]

end

/-- Places and nesting are not printed. -/
theorem Program.print_canonical (program : Program) : program.canonical.print = program.print :=
  program.command.print_canonical

/-! ## The parts of a sequence -/

theorem Command.parts_ne_nil : ∀ command : Command, command.parts ≠ []
  | .seq first _ _ => by
      have hfirst := first.parts_ne_nil
      simp [Command.parts, hfirst]
  | .assign .. | .call .. | .skip _ | .ifThenElse .. | .letIn .. | .whileDo .. => by
      simp [Command.parts]

theorem Declaration.parts_ne_nil : ∀ declaration : Declaration, declaration.parts ≠ []
  | .seq first _ _ => by
      have hfirst := first.parts_ne_nil
      simp [Declaration.parts, hfirst]
  | .const .. | .var .. | .proc .. | .func .. | .type .. | .unaryOperator ..
  | .binaryOperator .. => by
      simp [Declaration.parts]

theorem Command.print_eq_intercalate : ∀ command : Command,
    command.print = String.intercalate "; " (command.parts.map Command.print)
  | .seq first second _ => by
      rw [Command.print, Command.parts, List.map_append,
        String.intercalate_append_of_ne_nil (by simpa using first.parts_ne_nil)
          (by simpa using second.parts_ne_nil),
        ← first.print_eq_intercalate, ← second.print_eq_intercalate]
  | .assign .. | .call .. | .skip _ | .ifThenElse .. | .letIn .. | .whileDo .. => by
      rw [Command.parts, List.map_singleton, String.intercalate_singleton]
      all_goals simp

theorem Declaration.print_eq_intercalate : ∀ declaration : Declaration,
    declaration.print = String.intercalate "; " (declaration.parts.map Declaration.print)
  | .seq first second _ => by
      rw [Declaration.print, Declaration.parts, List.map_append,
        String.intercalate_append_of_ne_nil (by simpa using first.parts_ne_nil)
          (by simpa using second.parts_ne_nil),
        ← first.print_eq_intercalate, ← second.print_eq_intercalate]
  | .const .. | .var .. | .proc .. | .func .. | .type .. | .unaryOperator ..
  | .binaryOperator .. => by
      rw [Declaration.parts, List.map_singleton, String.intercalate_singleton]
      all_goals simp

theorem Command.andThen_assoc : ∀ first second third : Command,
    (first.andThen second).andThen third = first.andThen (second.andThen third)
  | .seq _ rest _, second, third => by
      have hrest := rest.andThen_assoc second third
      simp only [Command.andThen, hrest]
  | .assign .., _, _ | .call .., _, _ | .skip _, _, _ | .ifThenElse .., _, _ | .letIn .., _, _
  | .whileDo .., _, _ => rfl

theorem Declaration.andThen_assoc : ∀ first second third : Declaration,
    (first.andThen second).andThen third = first.andThen (second.andThen third)
  | .seq _ rest _, second, third => by
      have hrest := rest.andThen_assoc second third
      simp only [Declaration.andThen, hrest]
  | .const .., _, _ | .var .., _, _ | .proc .., _, _ | .func .., _, _ | .type .., _, _
  | .unaryOperator .., _, _ | .binaryOperator .., _, _ => rfl

theorem Command.canonical_andThen_seqAll : ∀ (command : Command) {later : List Command},
    later ≠ [] → command.canonical.andThen (.seqAll .dummy later) =
      .seqAll .dummy (command.parts.map Command.canonical ++ later)
  | .seq first second _, later, hlater => by
      -- from the back: the second part is put before what comes later, then the first one
      have hsecond := second.canonical_andThen_seqAll hlater
      have hrest : second.parts.map Command.canonical ++ later ≠ [] := by simp [hlater]
      have hfirst := first.canonical_andThen_seqAll hrest
      rw [Command.canonical, Command.andThen_assoc, hsecond, hfirst, Command.parts,
        List.map_append, List.append_assoc]
  | .assign .., _ :: _, _ | .call .., _ :: _, _ | .skip _, _ :: _, _ | .ifThenElse .., _ :: _, _
  | .letIn .., _ :: _, _ | .whileDo .., _ :: _, _ => rfl

/-- A command is the sequence of its parts. -/
theorem Command.canonical_eq_seqAll : ∀ command : Command,
    command.canonical = .seqAll .dummy (command.parts.map Command.canonical)
  | .seq first second _ => by
      have hsecond : second.parts.map Command.canonical ≠ [] := by
        simpa using second.parts_ne_nil
      have hfirst := first.canonical_andThen_seqAll hsecond
      rw [Command.canonical, second.canonical_eq_seqAll, hfirst, Command.parts, List.map_append]
  | .assign .. | .call .. | .skip _ | .ifThenElse .. | .letIn .. | .whileDo .. => rfl

theorem Declaration.chain?_parts_append : ∀ (declaration : Declaration)
    {later : List Declaration} {last : Declaration},
    Declaration.chain? .dummy later = some last →
    Declaration.chain? .dummy (declaration.parts.map Declaration.canonical ++ later) =
      some (declaration.canonical.andThen last)
  | .seq first second _, _, _, hlater => by
      -- likewise from the back, the way chains are built
      have hsecond := second.chain?_parts_append hlater
      have hfirst := first.chain?_parts_append hsecond
      rw [Declaration.parts, List.map_append, List.append_assoc, hfirst, Declaration.canonical,
        Declaration.andThen_assoc]
  | .const .., _ :: _, _, hlater | .var .., _ :: _, _, hlater | .proc .., _ :: _, _, hlater
  | .func .., _ :: _, _, hlater | .type .., _ :: _, _, hlater
  | .unaryOperator .., _ :: _, _, hlater | .binaryOperator .., _ :: _, _, hlater => by
      simp only [Declaration.parts, List.map_singleton, List.cons_append, List.nil_append,
        Declaration.chain?, hlater, Option.map_some]
      rfl

/-- A declaration is the chain of its parts. -/
theorem Declaration.chain?_parts : ∀ declaration : Declaration,
    Declaration.chain? .dummy (declaration.parts.map Declaration.canonical) =
      some declaration.canonical
  | .seq first second _ => by
      have hfirst := first.chain?_parts_append second.chain?_parts
      rw [Declaration.parts, List.map_append, hfirst, Declaration.canonical]
  | .const .. | .var .. | .proc .. | .func .. | .type .. | .unaryOperator ..
  | .binaryOperator .. => rfl

end LoopHoist
