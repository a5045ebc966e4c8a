import LoopHoist.Document.Fault

/-!
# Reading fields

The fields of a node are either named, as the entries of a mapping in any order, or placed, as the
elements of a sequence in the order in which the form of the node lists them.

Of several faults the one that stands first is reported.  The faults of named fields are therefore
located: a bad value where its entry stands, a repeated field where it is repeated, a missing field after
the last entry.  `Located` readings are combined by keeping the earlier fault, and of two faults at one
place the one whose field the form lists first.
-/

namespace LoopHoist.Document

/-- A form that a group of fields has: what it is called and its fields in order. -/
structure Form where
  label : String
  fields : List String

/-- The parts that a group of fields is read from. -/
inductive Parts (β : Type) where
  | named (entries : List (Key × β))
  | placed (elements : List β)

/-- A reading whose fault says where it stands. -/
def Located (α : Type) : Type := Except (Nat × Fault) α

namespace Located

/-- A reading of what stands at a place. -/
def ofReading {α : Type} (place : Nat) : Reading α → Located α
  | .ok a => .ok a
  | .error fault => .error (place, fault)

/-- A reading without the place of its fault. -/
def toReading {α : Type} : Located α → Reading α
  | .ok a => .ok a
  | .error (_, fault) => .error fault

/-- A function applied to what is read. -/
def map {α β : Type} (f : α → β) : Located α → Located β
  | .ok a => .ok (f a)
  | .error fault => .error fault

/-- Two readings together; if both fail the earlier fault counts. -/
def app {α β : Type} (f : Located (α → β)) (x : Located α) : Located β :=
  match f, x with
  | .ok f, .ok a => .ok (f a)
  | .ok _, .error fault => .error fault
  | .error fault, .ok _ => .error fault
  | .error fault, .error fault' => .error (if fault'.1 < fault.1 then fault' else fault)

instance : Functor Located := ⟨map, fun a => map fun _ => a⟩

instance : Applicative Located where
  pure a := .ok a
  seq f x := app f (x ())

end Located

namespace Form

variable {α β : Type}

/-- Whether a key stands for the field of this name. -/
def isKeyOf (form : Form) (field : String) : Key → Bool
  | .name text => text == field
  | .position index => form.fields[index]? == some field
  | .other _ => false

/-- The entries for a field, each with its place. -/
def entriesOf (form : Form) (field : String) (entries : List (Key × β)) : List (Nat × β) :=
  entries.zipIdx.filterMap fun (entry, place) =>
    if form.isKeyOf field entry.1 then some (place, entry.2) else none

/-- Reads one field; `absent` says what its absence means for named and for placed fields. -/
def field (form : Form) (parts : Parts β) (name : String) (absent : Reading α × Reading α)
    (read : β → Reading α) : Located α :=
  match parts with
  | .named entries =>
      match form.entriesOf name entries with
      | [] => .ofReading entries.length absent.1
      | (place, part) :: again =>
          match read part, again with
          | .error fault, _ => .error (place, fault)
          | .ok a, [] => .ok a
          | .ok _, (place', _) :: _ => .error (place', .repeated name)
  | .placed elements =>
      let place := form.fields.idxOf name
      match elements[place]? with
      | some part => .ofReading place (read part)
      | none => .ofReading place absent.2

/-- Reads a field that cannot be left out. -/
def required (form : Form) (parts : Parts β) (name : String) (read : β → Reading α) : Located α :=
  form.field parts name
    (.error (.missing name),
      .error (.tooShort (form.fields.idxOf name) form.label form.fields.length))
    read

/-- Reads a field that stands for `default` when it is left out. -/
def optional (form : Form) (parts : Parts β) (name : String) (default : α) (read : β → Reading α) :
    Located α :=
  form.field parts name (.ok default, .ok default) read

/-- The first key that names no field and no other field either. -/
def badKey? (entries : List (Key × β)) : Option (Nat × Fault) :=
  entries.zipIdx.findSome? fun (entry, place) =>
    match entry.1 with
    | .other found => some (place, .mismatch found .field)
    | .name _ | .position _ => none

/-- What the fields read together give; `surplus` is the fault of placed fields after the last one. -/
def close (form : Form) (parts : Parts β) (surplus : Fault) (result : Located α) : Reading α :=
  match parts with
  | .named entries =>
      match badKey? entries with
      | none => result.toReading
      | some fault => (Located.app (.error fault : Located (α → α)) result).toReading
  | .placed elements =>
      match result with
      | .error (_, fault) => .error fault
      | .ok a => if form.fields.length < elements.length then .error surplus else .ok a

end Form

end LoopHoist.Document
