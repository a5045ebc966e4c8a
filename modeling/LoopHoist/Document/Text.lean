import LoopHoist.Json.Text
import LoopHoist.Yaml.Group

/-!
# Documents as texts

A document is written in JSON or in YAML.  What can be said about a text that holds no document of the sort
that was asked for depends on how far one gets with it: if the text is well-formed JSON there is a fault to
report, and otherwise only that it is malformed.

Of a YAML text that does not hold what was asked for nothing more is said.
-/

namespace LoopHoist.Document

/-- The ways to write a document. -/
inductive Format where
  | json
  | yaml
deriving DecidableEq

/-- Why a text does not hold what was asked for. -/
inductive TextFault where
  | malformed
  | fault (cause : Fault)

/-- The wording of the reason. -/
def TextFault.message : TextFault → String
  | .malformed => "malformed document"
  | .fault cause => cause.message

/-- How one sort of document is read. -/
structure Reader (α : Type) where
  /-- The fields of a group that stands alone.  What other fields hold is passed over. -/
  fields : Option (List String) := none
  read : Value → Reading α
  ofYaml? : Option Yaml.Node → Option α

namespace Reader

variable {α : Type}

/-- Reads a document from the structure of a JSON text. -/
def ofTree (reader : Reader α) (tree : Json.Tree) : Except TextFault α :=
  let kept := match reader.fields with
    | none => tree
    | some fields => tree.keepFields fields
  match kept.value?.map reader.read with
  | some (.ok a) => .ok a
  | some (.error cause) => .error (if tree.value?.isSome then .fault cause else .malformed)
  | none => .error .malformed

/-- Reads a document from a JSON text. -/
def ofJson (reader : Reader α) (text : String) : Except TextFault α :=
  match Json.Tree.parse? text with
  | some tree => reader.ofTree tree
  | none => .error .malformed

/-- Reads a document from a YAML text. -/
def ofYaml (reader : Reader α) (text : String) : Except TextFault α :=
  match (Yaml.document? text).bind reader.ofYaml? with
  | some a => .ok a
  | none => .error .malformed

/-- Reads a document from a text. -/
def ofText (reader : Reader α) : Format → String → Except TextFault α
  | .json, text => reader.ofJson text
  | .yaml, text => reader.ofYaml text

/-- Reads what a value of any form can stand for. -/
def ofValues (read : Value → Reading α) : Reader α where
  read := read
  ofYaml? document := do (read (← (← document).value?)).toOption

/-! ## The sorts of documents -/

/-- Programs stand alone. -/
def program : Reader Program := ⟨some programForm.fields, readProgram, Yaml.program?⟩

/-- Commands, as every node with a kind, can be read from a value of any form. -/
def command : Reader Command := ofValues (readCommand .outer)

def expression : Reader Expression := ofValues (readExpression .outer)

def vname : Reader Vname := ofValues (readVname .outer)

def declaration : Reader Declaration := ofValues (readDeclaration .outer)

def typeDenoter : Reader TypeDenoter := ofValues (readType .outer)

def formal : Reader FormalParameter := ofValues (readFormal .outer)

def actual : Reader ActualParameter := ofValues (readActual .outer)

/-- Integers are numbers or spellings. -/
def integer : Reader Integer := ofValues readInteger

/-- Spans stand alone. -/
def span : Reader Span := ⟨some spanForm.fields, readSpan, Yaml.span?⟩

/-- Settings stand alone. -/
def settings : Reader Settings := ⟨some settingsForm.fields, readSettings, Yaml.settings?⟩

end Reader

end LoopHoist.Document
