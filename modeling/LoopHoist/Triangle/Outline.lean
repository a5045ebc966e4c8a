import LoopHoist.Triangle.Tree

/-!
# Outlines

An outline shows the shape of a tree rather than its source text: every node is a list in parentheses
that starts with what sort of node it is, and a node or leaf that was written somewhere is marked
`@line:column`.  Spellings stand as they are.
-/

namespace LoopHoist

/-- The mark of a place; what was written nowhere has none. -/
def Span.mark (span : Span) : String := if span.isDummy then "" else "@" ++ span.display

/-- A spelling with its mark. -/
def Terminal.outline {sort : Lexeme} (terminal : Terminal sort) : String :=
  terminal.spelling ++ terminal.span.mark

/-- A list in parentheses, its parts divided by blanks. -/
def parenthesized (parts : List String) : String :=
  "(" ++ String.intercalate " " parts ++ ")"

mutual

/-- The outline of a type. -/
def TypeDenoter.outline : TypeDenoter → String
  | .simple name => name.outline
  | .array length element => parenthesized ["array", length.outline, element.outline]
  | .record fields => parenthesized ("record" :: TypeDenoter.outlineFields fields)

/-- The outlines of the fields of a record type. -/
def TypeDenoter.outlineFields : List (Identifier × TypeDenoter) → List String
  | [] => []
  | (name, type) :: rest =>
      parenthesized [name.outline, type.outline] :: TypeDenoter.outlineFields rest

end

mutual

/-- The outline of a formal parameter. -/
def FormalParameter.outline : FormalParameter → String
  | .const name type => parenthesized ["const", name.outline, type.outline]
  | .var name type => parenthesized ["var", name.outline, type.outline]
  | .proc name parameters =>
      parenthesized
        ["proc", name.outline, parenthesized (FormalParameter.outlineAll parameters)]
  | .func name parameters result =>
      parenthesized
        ["func", name.outline, parenthesized (FormalParameter.outlineAll parameters),
          result.outline]

/-- The outlines of a list of formal parameters. -/
def FormalParameter.outlineAll : List FormalParameter → List String
  | [] => []
  | parameter :: rest => parameter.outline :: FormalParameter.outlineAll rest

end

mutual

/-- The outline of a value name. -/
def Vname.outline : Vname → String
  | .simple name span => parenthesized ["simple" ++ span.mark, name.outline]
  | .dot base field span => parenthesized ["dot" ++ span.mark, base.outline, field.outline]
  | .subscript base index span => parenthesized ["sub" ++ span.mark, base.outline, index.outline]

/-- The outline of an expression. -/
def Expression.outline : Expression → String
  | .empty span => parenthesized ["empty" ++ span.mark]
  | .integer literal span => parenthesized ["int" ++ span.mark, literal.outline]
  | .character literal span => parenthesized ["char" ++ span.mark, literal.outline]
  | .read vname span => parenthesized ["read" ++ span.mark, vname.outline]
  | .unary operator operand span =>
      parenthesized ["unary" ++ span.mark, operator.outline, operand.outline]
  | .binary operator left right span =>
      parenthesized ["binary" ++ span.mark, operator.outline, left.outline, right.outline]
  | .ifThenElse condition thenBranch elseBranch span =>
      parenthesized
        ["if" ++ span.mark, condition.outline, thenBranch.outline, elseBranch.outline]
  | .letIn declaration body span =>
      parenthesized ["let" ++ span.mark, declaration.outline, body.outline]
  | .call function arguments span =>
      parenthesized
        (("call" ++ span.mark) :: function.outline :: ActualParameter.outlineAll arguments)
  | .array elements span =>
      parenthesized (("array" ++ span.mark) :: Expression.outlineAll elements)
  | .record fields span =>
      parenthesized (("record" ++ span.mark) :: Expression.outlineFields fields)

/-- The outlines of a list of expressions. -/
def Expression.outlineAll : List Expression → List String
  | [] => []
  | element :: rest => element.outline :: Expression.outlineAll rest

/-- The outlines of the fields of a record. -/
def Expression.outlineFields : List (Identifier × Expression) → List String
  | [] => []
  | (name, value) :: rest =>
      parenthesized [name.outline, value.outline] :: Expression.outlineFields rest

/-- The outline of an argument. -/
def ActualParameter.outline : ActualParameter → String
  | .const value => parenthesized ["const", value.outline]
  | .var vname => parenthesized ["var", vname.outline]
  | .proc name => parenthesized ["proc", name.outline]
  | .func name => parenthesized ["func", name.outline]

/-- The outlines of the arguments of a call. -/
def ActualParameter.outlineAll : List ActualParameter → List String
  | [] => []
  | argument :: rest => argument.outline :: ActualParameter.outlineAll rest

/-- The outline of a declaration. -/
def Declaration.outline : Declaration → String
  | .const name value span => parenthesized ["const" ++ span.mark, name.outline, value.outline]
  | .var name type span => parenthesized ["var" ++ span.mark, name.outline, type.outline]
  | .proc name parameters body span =>
      parenthesized
        ["proc" ++ span.mark, name.outline,
          parenthesized (FormalParameter.outlineAll parameters), body.outline]
  | .func name parameters result body span =>
      parenthesized
        ["func" ++ span.mark, name.outline,
          parenthesized (FormalParameter.outlineAll parameters), result.outline, body.outline]
  | .type name type span => parenthesized ["type" ++ span.mark, name.outline, type.outline]
  | .unaryOperator operator argument result span =>
      parenthesized ["unop" ++ span.mark, operator.outline, argument.outline, result.outline]
  | .binaryOperator operator left right result span =>
      parenthesized
        ["binop" ++ span.mark, operator.outline, left.outline, right.outline, result.outline]
  | .seq first second span => parenthesized ["seq" ++ span.mark, first.outline, second.outline]

/-- The outline of a command. -/
def Command.outline : Command → String
  | .assign target value span =>
      parenthesized ["assign" ++ span.mark, target.outline, value.outline]
  | .call procedure arguments span =>
      parenthesized
        (("call" ++ span.mark) :: procedure.outline :: ActualParameter.outlineAll arguments)
  | .skip span => parenthesized ["empty" ++ span.mark]
  | .ifThenElse condition thenBranch elseBranch span =>
      parenthesized
        ["if" ++ span.mark, condition.outline, thenBranch.outline, elseBranch.outline]
  | .letIn declaration body span =>
      parenthesized ["let" ++ span.mark, declaration.outline, body.outline]
  | .seq first second span => parenthesized ["seq" ++ span.mark, first.outline, second.outline]
  | .whileDo condition body span =>
      parenthesized ["while" ++ span.mark, condition.outline, body.outline]

end

/-- The outline of a program. -/
def Program.outline (program : Program) : String :=
  parenthesized ["program" ++ program.span.mark, program.command.outline]

end LoopHoist
