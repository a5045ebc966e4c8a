import LoopHoist.Document.Group
import LoopHoist.Yaml.Resolution

/-!
# Programs, spans and settings in YAML texts

A group of fields that stands alone in a text is a mapping, and an empty text counts as a mapping without
entries.  Only the values of known fields are looked at, and each as what the field asks for: where a name
is asked for, a scalar is that name however it is written.
-/

namespace LoopHoist.Yaml

open Document (Parts Reading Key)

/-- The key of an entry of a group. -/
def groupKey? : Node → Option Key
  | .scalar _ text _ => some (.name text)
  | _ => none

/-- The parts of a group. -/
def groupParts? : Option Node → Option (Parts Node)
  | none => some (.named [])
  | some (.mapping _ entries) => do
      let entries ← entries.mapM fun (key, value) => do return (← groupKey? key, value)
      return .named entries
  | some (.scalar _ "" .plain) => some (.named [])
  | some _ => none

/-- A reading of a part: nothing more is known about a fault than that there is one. -/
def readPart {α : Type} (read? : Node → Option α) (node : Node) : Reading α :=
  match read? node with
  | some a => .ok a
  | none => .error .noValue

/-- Whether a scalar can be taken for a value of the type that a core tag names. -/
def allowsType (name : String) (tag : Option String) (style : Style) : Bool :=
  style = .plain || (style = .literal && tag == some (coreTag name))

/-- The truth value that a node stands for. -/
def boolean? : Node → Option Bool
  | .scalar tag text style => if allowsType "bool" tag style then truthWord? text else none
  | _ => none

/-- The unsigned 32-bit number that a node stands for. -/
def word32? : Node → Option Nat
  | .scalar tag text style =>
      if allowsType "int" tag style then (natural? text.toList).filter (· < Nat.pow 2 32) else none
  | _ => none

/-- The level that a node stands for: the one it names, or the one that a tag of its own invention names
in front of nothing. -/
def level? : Node → Option Level
  | .scalar (some tag) text style =>
      if tag.startsWith "!" then
        if style = .plain && (text.isEmpty || isNullWord text) then
          Level.ofName? (String.ofList (tag.toList.drop 1))
        else none
      else Level.ofName? text
  | .scalar none text _ => Level.ofName? text
  | _ => none

/-- The command that a node stands for inside of a program. -/
def command? (node : Node) : Option Document.Command := do
  let value ← node.valueWithin? (Node.nestingLimit - 1)
  (Document.readCommand .outer value).toOption

/-- The program that a text holds. -/
def program? (document : Option Node) : Option Document.Program := do
  (Document.readProgramFrom (readPart command?) (← groupParts? document)).toOption

/-- The span that a text holds. -/
def span? (document : Option Node) : Option Span := do
  (Document.readSpanFrom (readPart word32?) (← groupParts? document)).toOption

/-- The settings that a text holds. -/
def settings? (document : Option Node) : Option Settings := do
  (Document.readSettingsFrom (readPart level?) (readPart boolean?) (← groupParts? document)).toOption

end LoopHoist.Yaml
