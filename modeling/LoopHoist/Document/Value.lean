import LoopHoist.Decimal.Shortest
import LoopHoist.Text.Quoted

/-!
# Values

What a text says before anyone asks what it means: nulls, truth values, numbers, texts, sequences and
mappings.  Mappings keep their entries in the order in which they stand, repeated keys included, because
which fault of a document is reported depends on both.

The key of an entry is nearly always a name.  A position can stand for a name where the text format has
numbers for keys; any other key names nothing.
-/

namespace LoopHoist.Document

/-- What stands at some place, in a few words. -/
inductive Found where
  | null
  | boolean (value : Bool)
  | integer (value : Int)
  | float (value : Float)
  | text (value : String)
  | sequence
  | mapping

/-- How a fault speaks of what stands at a place. -/
def Found.description : Found → String
  | .null => "null"
  | .boolean value => "boolean `" ++ (if value then "true" else "false") ++ "`"
  | .integer value => "integer `" ++ toString value ++ "`"
  | .float value => "floating point `" ++ Decimal.floatText value ++ "`"
  | .text value => "string " ++ Text.quoted value
  | .sequence => "sequence"
  | .mapping => "map"

/-- The key of an entry of a mapping. -/
inductive Key where
  | name (text : String)
  | position (index : Nat)
  | other (found : Found)

/-- A value. -/
inductive Value where
  | null
  | boolean (value : Bool)
  | integer (value : Int)
  | float (value : Float)
  | text (value : String)
  | sequence (elements : List Value)
  | mapping (entries : List (Key × Value))

instance : Inhabited Value := ⟨.null⟩

namespace Value

/-- A value in a few words. -/
def found : Value → Found
  | .null => .null
  | .boolean value => .boolean value
  | .integer value => .integer value
  | .float value => .float value
  | .text value => .text value
  | .sequence _ => .sequence
  | .mapping _ => .mapping

/-- The mapping with these names for keys. -/
def ofFields (fields : List (String × Value)) : Value :=
  .mapping (fields.map fun field => (.name field.1, field.2))

/-! ## Parts are smaller than the whole -/

/-- A value that is smaller than `whole`, as everything inside of it is. -/
abbrev Part (whole : Value) := { value : Value // sizeOf value < sizeOf whole }

/-- The elements of a sequence, as parts of it. -/
def elementParts (elements : List Value) : List (Part (.sequence elements)) :=
  elements.attach.map fun ⟨element, h⟩ =>
    ⟨element, by have := List.sizeOf_lt_of_mem h; simp; omega⟩

/-- The entries of a mapping, as parts of it. -/
def entryParts (entries : List (Key × Value)) : List (Key × Part (.mapping entries)) :=
  entries.attach.map fun ⟨(key, value), h⟩ =>
    (key, ⟨value, by have := List.sizeOf_lt_of_mem h; simp at this ⊢; omega⟩)

/-- A part of a sequence that is a part of some whole is a part of that whole. -/
def Part.elements {whole : Value} (part : Part whole) : Option (List (Part whole)) :=
  match part with
  | ⟨.sequence elements, h⟩ =>
      some ((elementParts elements).map fun element => ⟨element.1, Nat.lt_trans element.2 h⟩)
  | _ => none

end Value

end LoopHoist.Document
