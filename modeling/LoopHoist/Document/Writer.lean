import LoopHoist.Document.Tree
import LoopHoist.Document.Value

/-!
# Writing documents as values

A node is written as a mapping: its kind first, then all its fields in the order of the vocabulary, also
those that may be left out.  Integers keep the form they have.
-/

namespace LoopHoist.Document

/-- The mapping for a node of this kind with these fields. -/
def Value.node (kind : String) (fields : List (String × Value)) : Value :=
  .ofFields (("kind", .text kind) :: fields)

/-- Writes an integer. -/
def Integer.write : Integer → Value
  | .number value => .integer value.toInt
  | .spelling text => .text text

/-! ## Types and formal parameters -/

mutual

/-- Writes a type. -/
def TypeDenoter.write : TypeDenoter → Value
  | .simple name => .node "simple" [("name", .text name)]
  | .array length element => .node "array" [("length", length.write), ("element", element.write)]
  | .record fields => .node "record" [("fields", .sequence (TypeDenoter.writeFields fields))]

/-- Writes the fields of a record type. -/
def TypeDenoter.writeFields : List (String × TypeDenoter) → List Value
  | [] => []
  | (name, type) :: rest =>
      .ofFields [("name", .text name), ("type", type.write)] :: TypeDenoter.writeFields rest

end

mutual

/-- Writes a formal parameter. -/
def FormalParameter.write : FormalParameter → Value
  | .const name type => .node "const" [("name", .text name), ("type", type.write)]
  | .var name type => .node "var" [("name", .text name), ("type", type.write)]
  | .proc name parameters =>
      .node "proc"
        [("name", .text name), ("parameters", .sequence (FormalParameter.writeAll parameters))]
  | .func name parameters result =>
      .node "func"
        [("name", .text name), ("parameters", .sequence (FormalParameter.writeAll parameters)),
          ("result", result.write)]

/-- Writes a list of formal parameters. -/
def FormalParameter.writeAll : List FormalParameter → List Value
  | [] => []
  | parameter :: rest => parameter.write :: FormalParameter.writeAll rest

end

/-! ## Value names, expressions, arguments, declarations and commands -/

mutual

/-- Writes a value name. -/
def Vname.write : Vname → Value
  | .simple name => .node "simple" [("name", .text name)]
  | .dot base field => .node "dot" [("base", base.write), ("field", .text field)]
  | .subscript base index => .node "subscript" [("base", base.write), ("index", index.write)]

/-- Writes an expression. -/
def Expression.write : Expression → Value
  | .empty => .node "empty" []
  | .integer value => .node "integer" [("value", value.write)]
  | .character value => .node "character" [("value", .text (String.singleton value))]
  | .vname vname => .node "vname" [("vname", vname.write)]
  | .var name => .node "var" [("name", .text name)]
  | .unary operator operand =>
      .node "unary" [("operator", .text operator), ("operand", operand.write)]
  | .binary operator left right =>
      .node "binary" [("operator", .text operator), ("left", left.write), ("right", right.write)]
  | .ifThenElse condition thenBranch elseBranch =>
      .node "if"
        [("condition", condition.write), ("then_branch", thenBranch.write),
          ("else_branch", elseBranch.write)]
  | .letIn declaration body =>
      .node "let" [("declaration", declaration.write), ("body", body.write)]
  | .call function arguments =>
      .node "call"
        [("function", .text function),
          ("arguments", .sequence (ActualParameter.writeAll arguments))]
  | .array elements => .node "array" [("elements", .sequence (Expression.writeAll elements))]
  | .record fields => .node "record" [("fields", .sequence (Expression.writeFields fields))]

/-- Writes a list of expressions. -/
def Expression.writeAll : List Expression → List Value
  | [] => []
  | element :: rest => element.write :: Expression.writeAll rest

/-- Writes the fields of a record. -/
def Expression.writeFields : List (String × Expression) → List Value
  | [] => []
  | (name, value) :: rest =>
      .ofFields [("name", .text name), ("value", value.write)] :: Expression.writeFields rest

/-- Writes an argument. -/
def ActualParameter.write : ActualParameter → Value
  | .const value => .node "const" [("value", value.write)]
  | .var vname => .node "var" [("vname", vname.write)]
  | .proc name => .node "proc" [("name", .text name)]
  | .func name => .node "func" [("name", .text name)]

/-- Writes the arguments of a call. -/
def ActualParameter.writeAll : List ActualParameter → List Value
  | [] => []
  | argument :: rest => argument.write :: ActualParameter.writeAll rest

/-- Writes a declaration. -/
def Declaration.write : Declaration → Value
  | .const name value => .node "const" [("name", .text name), ("value", value.write)]
  | .var name type => .node "var" [("name", .text name), ("type", type.write)]
  | .proc name parameters body =>
      .node "proc"
        [("name", .text name), ("parameters", .sequence (FormalParameter.writeAll parameters)),
          ("body", body.write)]
  | .func name parameters result body =>
      .node "func"
        [("name", .text name), ("parameters", .sequence (FormalParameter.writeAll parameters)),
          ("result", result.write), ("body", body.write)]
  | .type name type => .node "type" [("name", .text name), ("type", type.write)]
  | .unaryOperator operator argument result =>
      .node "unary_operator"
        [("operator", .text operator), ("argument", argument.write), ("result", result.write)]
  | .binaryOperator operator left right result =>
      .node "binary_operator"
        [("operator", .text operator), ("left", left.write), ("right", right.write),
          ("result", result.write)]
  | .sequential declarations =>
      .node "sequential" [("declarations", .sequence (Declaration.writeAll declarations))]

/-- Writes a list of declarations. -/
def Declaration.writeAll : List Declaration → List Value
  | [] => []
  | declaration :: rest => declaration.write :: Declaration.writeAll rest

/-- Writes a command. -/
def Command.write : Command → Value
  | .assign target value => .node "assign" [("target", target.write), ("value", value.write)]
  | .call procedure arguments =>
      .node "call"
        [("procedure", .text procedure),
          ("arguments", .sequence (ActualParameter.writeAll arguments))]
  | .empty => .node "empty" []
  | .ifThenElse condition thenBranch elseBranch =>
      .node "if"
        [("condition", condition.write), ("then_branch", thenBranch.write),
          ("else_branch", elseBranch.write)]
  | .letIn declaration body =>
      .node "let" [("declaration", declaration.write), ("body", body.write)]
  | .sequential commands =>
      .node "sequential" [("commands", .sequence (Command.writeAll commands))]
  | .whileDo condition body =>
      .node "while" [("condition", condition.write), ("body", body.write)]

/-- Writes a list of commands. -/
def Command.writeAll : List Command → List Value
  | [] => []
  | command :: rest => command.write :: Command.writeAll rest

end

/-- Writes a program. -/
def Program.write (program : Program) : Value := .ofFields [("command", program.command.write)]

end LoopHoist.Document
