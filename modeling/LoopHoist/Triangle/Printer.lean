import LoopHoist.Triangle.Tree

/-!
# Concrete text

Trees are written back as Triangle source on one line.  Two things need brackets to be read back the
same way: a sequence of commands inside a structured command stands between `begin` and `end`, and an
operand that is itself a binary expression stands in parentheses.  Nothing else is bracketed.
-/

namespace LoopHoist

/-- The parts of a list, divided by commas. -/
def commaSeparated (parts : List String) : String := String.intercalate ", " parts

/-! ## Types and formal parameters -/

mutual

/-- The text of a type. -/
def TypeDenoter.print : TypeDenoter → String
  | .simple name => name.spelling
  | .array length element => "array " ++ length.spelling ++ " of " ++ element.print
  | .record fields => "record " ++ commaSeparated (TypeDenoter.printFields fields) ++ " end"

/-- The texts of the fields of a record type. -/
def TypeDenoter.printFields : List (Identifier × TypeDenoter) → List String
  | [] => []
  | (name, type) :: rest => (name.spelling ++ " : " ++ type.print) :: TypeDenoter.printFields rest

end

mutual

/-- The text of a formal parameter. -/
def FormalParameter.print : FormalParameter → String
  | .const name type => name.spelling ++ " : " ++ type.print
  | .var name type => "var " ++ name.spelling ++ " : " ++ type.print
  | .proc name parameters =>
      "proc " ++ name.spelling ++ "(" ++ commaSeparated (FormalParameter.printAll parameters) ++ ")"
  | .func name parameters result =>
      "func " ++ name.spelling ++ "(" ++ commaSeparated (FormalParameter.printAll parameters) ++
        ") : " ++ result.print

/-- The texts of the parameters of a procedure or function. -/
def FormalParameter.printAll : List FormalParameter → List String
  | [] => []
  | parameter :: rest => parameter.print :: FormalParameter.printAll rest

end

/-- The text of a list of formal parameters, with its parentheses. -/
def FormalParameter.printList (parameters : List FormalParameter) : String :=
  "(" ++ commaSeparated (FormalParameter.printAll parameters) ++ ")"

/-! ## Where brackets go -/

/-- An operand is put in parentheses when it is a binary expression. -/
def Expression.bracketed (operand : Expression) (text : String) : String :=
  match operand with
  | .binary .. => "(" ++ text ++ ")"
  | _ => text

/-- A command inside another is put between `begin` and `end` when it is a sequence. -/
def Command.bracketed (command : Command) (text : String) : String :=
  match command with
  | .seq .. => "begin " ++ text ++ " end"
  | _ => text

/-! ## Value names, expressions, arguments, declarations and commands -/

mutual

/-- The text of a value name. -/
def Vname.print : Vname → String
  | .simple name _ => name.spelling
  | .dot base field _ => base.print ++ "." ++ field.spelling
  | .subscript base index _ => base.print ++ "[" ++ index.print ++ "]"

/-- The text of an expression. -/
def Expression.print : Expression → String
  | .empty _ => ""
  | .integer literal _ => literal.spelling
  | .character literal _ => literal.spelling
  | .read vname _ => vname.print
  | .unary operator operand _ => operator.spelling ++ operand.bracketed operand.print
  | .binary operator left right _ =>
      left.bracketed left.print ++ " " ++ operator.spelling ++ " " ++ right.bracketed right.print
  | .ifThenElse condition thenBranch elseBranch _ =>
      "if " ++ condition.print ++ " then " ++ thenBranch.print ++ " else " ++ elseBranch.print
  | .letIn declaration body _ => "let " ++ declaration.print ++ " in " ++ body.print
  | .call function arguments _ =>
      function.spelling ++ "(" ++ commaSeparated (ActualParameter.printAll arguments) ++ ")"
  | .array elements _ => "[" ++ commaSeparated (Expression.printAll elements) ++ "]"
  | .record fields _ => "\x7b" ++ commaSeparated (Expression.printFields fields) ++ "\x7d"

/-- The texts of the elements of an array. -/
def Expression.printAll : List Expression → List String
  | [] => []
  | element :: rest => element.print :: Expression.printAll rest

/-- The texts of the fields of a record. -/
def Expression.printFields : List (Identifier × Expression) → List String
  | [] => []
  | (name, value) :: rest =>
      (name.spelling ++ " ~ " ++ value.print) :: Expression.printFields rest

/-- The text of an argument. -/
def ActualParameter.print : ActualParameter → String
  | .const value => value.print
  | .var vname => "var " ++ vname.print
  | .proc name => "proc " ++ name.spelling
  | .func name => "func " ++ name.spelling

/-- The texts of the arguments of a call. -/
def ActualParameter.printAll : List ActualParameter → List String
  | [] => []
  | argument :: rest => argument.print :: ActualParameter.printAll rest

/-- The text of a declaration. -/
def Declaration.print : Declaration → String
  | .const name value _ => "const " ++ name.spelling ++ " ~ " ++ value.print
  | .var name type _ => "var " ++ name.spelling ++ " : " ++ type.print
  | .proc name parameters body _ =>
      "proc " ++ name.spelling ++ FormalParameter.printList parameters ++ " ~ " ++
        body.bracketed body.print
  | .func name parameters result body _ =>
      "func " ++ name.spelling ++ FormalParameter.printList parameters ++ " : " ++ result.print ++
        " ~ " ++ body.print
  | .type name type _ => "type " ++ name.spelling ++ " ~ " ++ type.print
  | .unaryOperator operator argument result _ =>
      "operator " ++ operator.spelling ++ " (" ++ argument.print ++ ") : " ++ result.print
  | .binaryOperator operator left right result _ =>
      "operator " ++ operator.spelling ++ " (" ++ left.print ++ ", " ++ right.print ++ ") : " ++
        result.print
  | .seq first second _ => first.print ++ "; " ++ second.print

/-- The text of a command. -/
def Command.print : Command → String
  | .assign target value _ => target.print ++ " := " ++ value.print
  | .call procedure arguments _ =>
      procedure.spelling ++ "(" ++ commaSeparated (ActualParameter.printAll arguments) ++ ")"
  | .skip _ => ""
  | .ifThenElse condition thenBranch elseBranch _ =>
      "if " ++ condition.print ++ " then " ++ thenBranch.bracketed thenBranch.print ++ " else " ++
        elseBranch.bracketed elseBranch.print
  | .letIn declaration body _ =>
      "let " ++ declaration.print ++ " in " ++ body.bracketed body.print
  | .seq first second _ => first.print ++ "; " ++ second.print
  | .whileDo condition body _ =>
      "while " ++ condition.print ++ " do " ++ body.bracketed body.print

end

/-- The text of a program. -/
def Program.print (program : Program) : String := program.command.print

end LoopHoist
