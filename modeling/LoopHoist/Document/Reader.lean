import LoopHoist.Decimal.Numeral
import LoopHoist.Document.Kind
import LoopHoist.Document.Tree

/-!
# Reading documents from values

A value is read as a node of one family or another by taking it apart (`Family.split`) and reading the
fields of its kind.  Every part of a value is smaller than the value, which is why reading ends.
-/

namespace LoopHoist.Document

/-! ## Leaves -/

/-- Reads a text. -/
def readText (value : Value) : Reading String :=
  match value with
  | .text text => .ok text
  | other => .error (.mismatch other.found .text)

/-- Reads a text of exactly one character. -/
def readCharacter (value : Value) : Reading Char :=
  match value with
  | .text text =>
      match text.toList with
      | [c] => .ok c
      | _ => .error (.unsuitable (.text text) .character)
  | other => .error (.mismatch other.found .character)

/-- Reads an integer: a signed 64-bit number, or a text. -/
def readInteger (value : Value) : Reading Integer :=
  match value with
  | .integer n => if Decimal.isWord n then .ok (.number (Int64.ofInt n)) else .error .notAnInteger
  | .text text => .ok (.spelling text)
  | _ => .error .notAnInteger

/-- Reads each part of a sequence, the first fault counting. -/
def readAll {whole : Value} {α : Type} (read : whole.Part → Reading α) (part : whole.Part) :
    Reading (List α) :=
  match part.elements with
  | some elements => elements.mapM read
  | none => .error (.mismatch part.1.found .sequence)

/-! ## Types and formal parameters -/

mutual

/-- Reads a type. -/
def readType (place : Place) (value : Value) : Reading TypeDenoter := do
  let node ← typeFamily.split place value
  match node.tag with
  | .simple => node.close (.simple <$> node.required "name" fun part => readText part.1)
  | .array =>
      node.close
        (.array <$> node.required "length" (fun part => readInteger part.1)
          <*> node.required "element" fun part => readType .inner part.1)
  | .record =>
      node.close (.record <$> node.required "fields" (readAll fun part => readTypeField part.1))
termination_by sizeOf value
decreasing_by all_goals exact part.2

/-- Reads a named type. -/
def readTypeField (value : Value) : Reading (String × TypeDenoter) := do
  let node ← Family.splitGroup "FieldTypeNode" ["name", "type"] value
  node.close
    (Prod.mk <$> node.required "name" (fun part => readText part.1)
      <*> node.required "type" fun part => readType .inner part.1)
termination_by sizeOf value
decreasing_by all_goals exact part.2

end

/-- Reads a formal parameter. -/
def readFormal (place : Place) (value : Value) : Reading FormalParameter := do
  let node ← formalFamily.split place value
  match node.tag with
  | .const =>
      node.close
        (.const <$> node.required "name" (fun part => readText part.1)
          <*> node.required "type" fun part => readType .inner part.1)
  | .var =>
      node.close
        (.var <$> node.required "name" (fun part => readText part.1)
          <*> node.required "type" fun part => readType .inner part.1)
  | .proc =>
      node.close
        (.proc <$> node.required "name" (fun part => readText part.1)
          <*> node.optional "parameters" (readAll fun part => readFormal .inner part.1))
  | .func =>
      node.close
        (.func <$> node.required "name" (fun part => readText part.1)
          <*> node.optional "parameters" (readAll fun part => readFormal .inner part.1)
          <*> node.required "result" fun part => readType .inner part.1)
termination_by sizeOf value
decreasing_by all_goals exact part.2

/-! ## Value names, expressions, arguments, declarations and commands -/

mutual

/-- Reads a value name. -/
def readVname (place : Place) (value : Value) : Reading Vname := do
  let node ← vnameFamily.split place value
  match node.tag with
  | .simple => node.close (.simple <$> node.required "name" fun part => readText part.1)
  | .dot =>
      node.close
        (.dot <$> node.required "base" (fun part => readVname .inner part.1)
          <*> node.required "field" fun part => readText part.1)
  | .subscript =>
      node.close
        (.subscript <$> node.required "base" (fun part => readVname .inner part.1)
          <*> node.required "index" fun part => readExpression .inner part.1)
termination_by sizeOf value
decreasing_by all_goals exact part.2

/-- Reads an expression. -/
def readExpression (place : Place) (value : Value) : Reading Expression := do
  let node ← expressionFamily.split place value
  match node.tag with
  | .empty => node.bare .empty
  | .integer => node.close (.integer <$> node.required "value" fun part => readInteger part.1)
  | .character => node.close (.character <$> node.required "value" fun part => readCharacter part.1)
  | .vname => node.close (.vname <$> node.required "vname" fun part => readVname .inner part.1)
  | .var => node.close (.var <$> node.required "name" fun part => readText part.1)
  | .unary =>
      node.close
        (.unary <$> node.required "operator" (fun part => readText part.1)
          <*> node.required "operand" fun part => readExpression .inner part.1)
  | .binary =>
      node.close
        (.binary <$> node.required "operator" (fun part => readText part.1)
          <*> node.required "left" (fun part => readExpression .inner part.1)
          <*> node.required "right" fun part => readExpression .inner part.1)
  | .ifThenElse =>
      node.close
        (.ifThenElse <$> node.required "condition" (fun part => readExpression .inner part.1)
          <*> node.required "then_branch" (fun part => readExpression .inner part.1)
          <*> node.required "else_branch" fun part => readExpression .inner part.1)
  | .letIn =>
      node.close
        (.letIn <$> node.required "declaration" (fun part => readDeclaration .inner part.1)
          <*> node.required "body" fun part => readExpression .inner part.1)
  | .call =>
      node.close
        (.call <$> node.required "function" (fun part => readText part.1)
          <*> node.optional "arguments" (readAll fun part => readActual .inner part.1))
  | .array =>
      node.close
        (.array <$> node.required "elements" (readAll fun part => readExpression .inner part.1))
  | .record =>
      node.close (.record <$> node.required "fields" (readAll fun part => readRecordField part.1))
termination_by sizeOf value
decreasing_by all_goals exact part.2

/-- Reads a named expression. -/
def readRecordField (value : Value) : Reading (String × Expression) := do
  let node ← Family.splitGroup "RecordFieldNode" ["name", "value"] value
  node.close
    (Prod.mk <$> node.required "name" (fun part => readText part.1)
      <*> node.required "value" fun part => readExpression .inner part.1)
termination_by sizeOf value
decreasing_by all_goals exact part.2

/-- Reads an argument. -/
def readActual (place : Place) (value : Value) : Reading ActualParameter := do
  let node ← actualFamily.split place value
  match node.tag with
  | .const => node.close (.const <$> node.required "value" fun part => readExpression .inner part.1)
  | .var => node.close (.var <$> node.required "vname" fun part => readVname .inner part.1)
  | .proc => node.close (.proc <$> node.required "name" fun part => readText part.1)
  | .func => node.close (.func <$> node.required "name" fun part => readText part.1)
termination_by sizeOf value
decreasing_by all_goals exact part.2

/-- Reads a declaration. -/
def readDeclaration (place : Place) (value : Value) : Reading Declaration := do
  let node ← declarationFamily.split place value
  match node.tag with
  | .const =>
      node.close
        (.const <$> node.required "name" (fun part => readText part.1)
          <*> node.required "value" fun part => readExpression .inner part.1)
  | .var =>
      node.close
        (.var <$> node.required "name" (fun part => readText part.1)
          <*> node.required "type" fun part => readType .inner part.1)
  | .proc =>
      node.close
        (.proc <$> node.required "name" (fun part => readText part.1)
          <*> node.optional "parameters" (readAll fun part => readFormal .inner part.1)
          <*> node.required "body" fun part => readCommand .inner part.1)
  | .func =>
      node.close
        (.func <$> node.required "name" (fun part => readText part.1)
          <*> node.optional "parameters" (readAll fun part => readFormal .inner part.1)
          <*> node.required "result" (fun part => readType .inner part.1)
          <*> node.required "body" fun part => readExpression .inner part.1)
  | .type =>
      node.close
        (.type <$> node.required "name" (fun part => readText part.1)
          <*> node.required "type" fun part => readType .inner part.1)
  | .unaryOperator =>
      node.close
        (.unaryOperator <$> node.required "operator" (fun part => readText part.1)
          <*> node.required "argument" (fun part => readType .inner part.1)
          <*> node.required "result" fun part => readType .inner part.1)
  | .binaryOperator =>
      node.close
        (.binaryOperator <$> node.required "operator" (fun part => readText part.1)
          <*> node.required "left" (fun part => readType .inner part.1)
          <*> node.required "right" (fun part => readType .inner part.1)
          <*> node.required "result" fun part => readType .inner part.1)
  | .sequential =>
      node.close
        (.sequential <$>
          node.required "declarations" (readAll fun part => readDeclaration .inner part.1))
termination_by sizeOf value
decreasing_by all_goals exact part.2

/-- Reads a command. -/
def readCommand (place : Place) (value : Value) : Reading Command := do
  let node ← commandFamily.split place value
  match node.tag with
  | .assign =>
      node.close
        (.assign <$> node.required "target" (fun part => readVname .inner part.1)
          <*> node.required "value" fun part => readExpression .inner part.1)
  | .call =>
      node.close
        (.call <$> node.required "procedure" (fun part => readText part.1)
          <*> node.optional "arguments" (readAll fun part => readActual .inner part.1))
  | .empty => node.bare .empty
  | .ifThenElse =>
      node.close
        (.ifThenElse <$> node.required "condition" (fun part => readExpression .inner part.1)
          <*> node.required "then_branch" (fun part => readCommand .inner part.1)
          <*> node.required "else_branch" fun part => readCommand .inner part.1)
  | .letIn =>
      node.close
        (.letIn <$> node.required "declaration" (fun part => readDeclaration .inner part.1)
          <*> node.required "body" fun part => readCommand .inner part.1)
  | .sequential =>
      node.close
        (.sequential <$> node.required "commands" (readAll fun part => readCommand .inner part.1))
  | .whileDo =>
      node.close
        (.whileDo <$> node.required "condition" (fun part => readExpression .inner part.1)
          <*> node.required "body" fun part => readCommand .inner part.1)
termination_by sizeOf value
decreasing_by all_goals exact part.2

end

end LoopHoist.Document
