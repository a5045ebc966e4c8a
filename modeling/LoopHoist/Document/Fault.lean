import LoopHoist.Document.Value

/-!
# What can be wrong with a value

Reading a value as a document fails for one of the causes listed here.  Only `Fault.message` knows how a
cause is worded.
-/

namespace LoopHoist.Document

/-- What a place in a document asks for. -/
inductive Wanted where
  | text
  | character
  | boolean
  | word32
  | nothing
  | sequence
  | kind
  | field
  /-- A node of the named family. -/
  | node (family : String)
  /-- A group of fields of the named sort. -/
  | group (label : String)

/-- How a fault speaks of what is asked for. -/
def Wanted.description : Wanted → String
  | .text => "a string"
  | .character => "a character"
  | .boolean => "a boolean"
  | .word32 => "u32"
  | .nothing => "unit"
  | .sequence => "a sequence"
  | .kind => "variant identifier"
  | .field => "field identifier"
  | .node family => "internally tagged enum " ++ family
  | .group label => "struct " ++ label

/-- Why a value cannot be read. -/
inductive Fault where
  /-- Another type of value was asked for. -/
  | mismatch (found : Found) (wanted : Wanted)
  /-- A value of this type was asked for, but not this one. -/
  | unsuitable (found : Found) (wanted : Wanted)
  /-- A kind was given by its position, and there are not so many. -/
  | noSuchKind (position : Int) (count : Nat)
  /-- A kind was given by a name that is none of the known ones. -/
  | unknownKind (name : String) (known : List String)
  | missing (field : String)
  | repeated (field : String)
  /-- A list of fields ends before a field that cannot be left out. -/
  | tooShort (length : Nat) (label : String) (count : Nat)
  /-- A list of fields goes on after the last one. -/
  | tooLong (length : Nat) (count : Nat)
  /-- Neither a signed 64-bit number nor a text. -/
  | notAnInteger
  /-- More stands in the text after what was asked for. -/
  | trailing
  /-- No value that could be meant stands in the text. -/
  | noValue

/-- So many elements. -/
def elementCount (count : Nat) : String :=
  toString count ++ if count = 1 then " element" else " elements"

/-- The wording of a fault. -/
def Fault.message : Fault → String
  | .mismatch found wanted =>
      "invalid type: " ++ found.description ++ ", expected " ++ wanted.description
  | .unsuitable found wanted =>
      "invalid value: " ++ found.description ++ ", expected " ++ wanted.description
  | .noSuchKind position count =>
      "invalid value: " ++ (Found.integer position).description ++
        ", expected variant index 0 <= i < " ++ toString count
  | .unknownKind name known =>
      "unknown variant `" ++ name ++ "`, expected one of " ++
        String.intercalate ", " (known.map fun kind => "`" ++ kind ++ "`")
  | .missing field => "missing field `" ++ field ++ "`"
  | .repeated field => "duplicate field `" ++ field ++ "`"
  | .tooShort length label count =>
      "invalid length " ++ toString length ++ ", expected " ++ label ++ " with " ++ elementCount count
  | .tooLong length count =>
      "invalid length " ++ toString length ++ ", expected " ++ elementCount count ++ " in sequence"
  | .notAnInteger => "data did not match any variant of untagged enum IntegerValue"
  | .trailing => "trailing characters"
  | .noValue => "expected value"

/-- What reading gives. -/
abbrev Reading (α : Type) := Except Fault α

end LoopHoist.Document
