import LoopHoist.Document.Fields

/-!
# Families of nodes

Every node of a document belongs to a family and has one of its kinds.  The kind is written under the key
`kind`, or first in a sequence, and decides which fields the node has.  The tables below are the whole
vocabulary of the format: the kinds of each family, in order, and the fields of each kind, in order.

Inside a document a kind can also be given by its position in its family.  The outermost node of a
document has to name its kind.
-/

namespace LoopHoist.Document

/-- Whether a node stands inside another one. -/
inductive Place where
  | outer
  | inner
deriving DecidableEq

/-- A kind of node: its tag, the name it is written with, its label, and its fields in order. -/
structure Kind (κ : Type) where
  tag : κ
  name : String
  label : String
  fields : List String

/-- A family of nodes. -/
structure Family (κ : Type) where
  label : String
  kinds : List (Kind κ)

namespace Family

variable {κ : Type}

/-- The form of the nodes of a kind. -/
def form (family : Family κ) (kind : Kind κ) : Form :=
  ⟨"struct variant " ++ family.label ++ "::" ++ kind.label, kind.fields⟩

/-- Reads a kind. -/
def readKind (family : Family κ) (place : Place) (found : Found) : Reading (Kind κ) :=
  match found, place with
  | .text name, _ =>
      match family.kinds.find? fun kind => kind.name == name with
      | some kind => .ok kind
      | none => .error (.unknownKind name (family.kinds.map Kind.name))
  | .integer position, .inner =>
      if position < 0 then .error (.mismatch found .kind)
      else
        match family.kinds[position.toNat]? with
        | some kind => .ok kind
        | none => .error (.noSuchKind position family.kinds.length)
  | _, _ => .error (.mismatch found .kind)

/-- A node taken apart: what kind it is and the parts its fields are read from. -/
structure Node (κ : Type) (whole : Value) where
  tag : κ
  form : Form
  parts : Parts whole.Part

/-- Whether an entry gives the kind of a node. -/
def isKindEntry {β : Type} (entry : Key × β) : Bool :=
  match entry.1 with
  | .name text => text == "kind"
  | .position _ | .other _ => false

/-- Takes a node apart. -/
def split (family : Family κ) (place : Place) (value : Value) : Reading (Node κ value) :=
  match value with
  | .mapping entries =>
      let parts := Value.entryParts entries
      match parts.filter isKindEntry with
      | [] => .error (.missing "kind")
      | (_, first) :: again =>
          match family.readKind place first.1.found, again with
          | .error fault, _ => .error fault
          | .ok _, _ :: _ => .error (.repeated "kind")
          | .ok kind, [] =>
              .ok ⟨kind.tag, family.form kind, .named (parts.filter fun entry => !isKindEntry entry)⟩
  | .sequence elements =>
      match Value.elementParts elements with
      | [] => .error (.missing "kind")
      | first :: rest =>
          match family.readKind place first.1.found with
          | .error fault => .error fault
          | .ok kind => .ok ⟨kind.tag, family.form kind, .placed rest⟩
  | .null | .boolean _ | .integer _ | .float _ | .text _ =>
      .error (.mismatch value.found (.node family.label))

/-- A group of fields that has no kind, taken apart. -/
def splitGroup (label : String) (fields : List String) (value : Value) : Reading (Node Unit value) :=
  let form : Form := ⟨"struct " ++ label, fields⟩
  match value with
  | .mapping entries => .ok ⟨(), form, .named (Value.entryParts entries)⟩
  | .sequence elements => .ok ⟨(), form, .placed (Value.elementParts elements)⟩
  | .null | .boolean _ | .integer _ | .float _ | .text _ =>
      .error (.mismatch value.found (.group label))

namespace Node

variable {whole : Value} {α : Type}

/-- Reads a field of a node that cannot be left out. -/
def required (node : Node κ whole) (name : String) (read : whole.Part → Reading α) : Located α :=
  node.form.required node.parts name read

/-- Reads a field of a node that is an empty list when it is left out. -/
def optional (node : Node κ whole) (name : String) (read : whole.Part → Reading (List α)) :
    Located (List α) :=
  node.form.optional node.parts name [] read

/-- The node that its fields read together give. -/
def close (node : Node κ whole) (result : Located α) : Reading α :=
  let surplus := match node.parts with
    | .placed elements => Fault.tooLong elements.length node.form.fields.length
    | .named _ => .trailing
  node.form.close node.parts surplus result

/-- A node without fields.  Whatever else stands in a mapping does not matter to it. -/
def bare (node : Node κ whole) (a : α) : Reading α :=
  match node.parts with
  | .named _ => .ok a
  | .placed _ => node.close (.ok a)

end Node

end Family

/-! ## The vocabulary -/

/-- The kinds of commands. -/
inductive CommandKind where
  | assign | call | empty | ifThenElse | letIn | sequential | whileDo
deriving DecidableEq

/-- The family of commands. -/
def commandFamily : Family CommandKind where
  label := "CommandNode"
  kinds :=
    [⟨.assign, "assign", "Assign", ["target", "value"]⟩,
      ⟨.call, "call", "Call", ["procedure", "arguments"]⟩,
      ⟨.empty, "empty", "Empty", []⟩,
      ⟨.ifThenElse, "if", "If", ["condition", "then_branch", "else_branch"]⟩,
      ⟨.letIn, "let", "Let", ["declaration", "body"]⟩,
      ⟨.sequential, "sequential", "Sequential", ["commands"]⟩,
      ⟨.whileDo, "while", "While", ["condition", "body"]⟩]

/-- The kinds of expressions. -/
inductive ExpressionKind where
  | empty | integer | character | vname | var | unary | binary | ifThenElse | letIn | call | array
  | record
deriving DecidableEq

/-- The family of expressions. -/
def expressionFamily : Family ExpressionKind where
  label := "ExpressionNode"
  kinds :=
    [⟨.empty, "empty", "Empty", []⟩,
      ⟨.integer, "integer", "Integer", ["value"]⟩,
      ⟨.character, "character", "Character", ["value"]⟩,
      ⟨.vname, "vname", "Vname", ["vname"]⟩,
      ⟨.var, "var", "Var", ["name"]⟩,
      ⟨.unary, "unary", "Unary", ["operator", "operand"]⟩,
      ⟨.binary, "binary", "Binary", ["operator", "left", "right"]⟩,
      ⟨.ifThenElse, "if", "If", ["condition", "then_branch", "else_branch"]⟩,
      ⟨.letIn, "let", "Let", ["declaration", "body"]⟩,
      ⟨.call, "call", "Call", ["function", "arguments"]⟩,
      ⟨.array, "array", "Array", ["elements"]⟩,
      ⟨.record, "record", "Record", ["fields"]⟩]

/-- The kinds of value names. -/
inductive VnameKind where
  | simple | dot | subscript
deriving DecidableEq

/-- The family of value names. -/
def vnameFamily : Family VnameKind where
  label := "VnameNode"
  kinds :=
    [⟨.simple, "simple", "Simple", ["name"]⟩,
      ⟨.dot, "dot", "Dot", ["base", "field"]⟩,
      ⟨.subscript, "subscript", "Subscript", ["base", "index"]⟩]

/-- The kinds of declarations. -/
inductive DeclarationKind where
  | const | var | proc | func | type | unaryOperator | binaryOperator | sequential
deriving DecidableEq

/-- The family of declarations. -/
def declarationFamily : Family DeclarationKind where
  label := "DeclarationNode"
  kinds :=
    [⟨.const, "const", "Const", ["name", "value"]⟩,
      ⟨.var, "var", "Var", ["name", "type"]⟩,
      ⟨.proc, "proc", "Proc", ["name", "parameters", "body"]⟩,
      ⟨.func, "func", "Func", ["name", "parameters", "result", "body"]⟩,
      ⟨.type, "type", "Type", ["name", "type"]⟩,
      ⟨.unaryOperator, "unary_operator", "UnaryOperator", ["operator", "argument", "result"]⟩,
      ⟨.binaryOperator, "binary_operator", "BinaryOperator", ["operator", "left", "right", "result"]⟩,
      ⟨.sequential, "sequential", "Sequential", ["declarations"]⟩]

/-- The kinds of types. -/
inductive TypeKind where
  | simple | array | record
deriving DecidableEq

/-- The family of types. -/
def typeFamily : Family TypeKind where
  label := "TypeNode"
  kinds :=
    [⟨.simple, "simple", "Simple", ["name"]⟩,
      ⟨.array, "array", "Array", ["length", "element"]⟩,
      ⟨.record, "record", "Record", ["fields"]⟩]

/-- The kinds of parameters, formal and actual. -/
inductive ParameterKind where
  | const | var | proc | func
deriving DecidableEq

/-- The family of formal parameters. -/
def formalFamily : Family ParameterKind where
  label := "FormalParameterNode"
  kinds :=
    [⟨.const, "const", "Const", ["name", "type"]⟩,
      ⟨.var, "var", "Var", ["name", "type"]⟩,
      ⟨.proc, "proc", "Proc", ["name", "parameters"]⟩,
      ⟨.func, "func", "Func", ["name", "parameters", "result"]⟩]

/-- The family of arguments. -/
def actualFamily : Family ParameterKind where
  label := "ActualParameterNode"
  kinds :=
    [⟨.const, "const", "Const", ["value"]⟩,
      ⟨.var, "var", "Var", ["vname"]⟩,
      ⟨.proc, "proc", "Proc", ["name"]⟩,
      ⟨.func, "func", "Func", ["name"]⟩]

end LoopHoist.Document
