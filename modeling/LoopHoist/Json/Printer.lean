import LoopHoist.Document.Value

/-!
# Values as JSON text

`compact` writes a value without any blanks.  `indented` puts every element and every entry on a line of
its own.
-/

namespace LoopHoist.Json

open Document (Value Key)

/-- A key as text.  Keys that are not names do not occur in JSON; a position is written as a numeral. -/
def keyText : Key → String
  | .name text => text
  | .position index => toString index
  | .other found => found.description

mutual

/-- A value as text without blanks. -/
def compact : Value → String
  | .null => "null"
  | .boolean value => if value then "true" else "false"
  | .integer value => toString value
  | .float value => Decimal.floatText value
  | .text value => Text.jsonQuoted value
  | .sequence elements => "[" ++ String.intercalate "," (compactAll elements) ++ "]"
  | .mapping entries => "\x7b" ++ String.intercalate "," (compactEntries entries) ++ "\x7d"

/-- The texts of the elements of a sequence. -/
def compactAll : List Value → List String
  | [] => []
  | element :: rest => compact element :: compactAll rest

/-- The texts of the entries of a mapping. -/
def compactEntries : List (Key × Value) → List String
  | [] => []
  | (key, value) :: rest =>
      (Text.jsonQuoted (keyText key) ++ ":" ++ compact value) :: compactEntries rest

end

/-- So many levels of indentation. -/
def indentation (depth : Nat) : String := String.join (List.replicate depth "  ")

/-- Parts on lines of their own, one level deeper than the brackets around them. -/
def indentedBlock (depth : Nat) (opening : String) (parts : List String) (closing : String) :
    String :=
  match parts with
  | [] => opening ++ closing
  | parts =>
      let lines := parts.map fun part => "\n" ++ indentation (depth + 1) ++ part
      opening ++ String.intercalate "," lines ++ "\n" ++ indentation depth ++ closing

mutual

/-- A value as text over several lines, inside of `depth` others. -/
def indentedAt (depth : Nat) : Value → String
  | .sequence elements => indentedBlock depth "[" (indentedAll depth elements) "]"
  | .mapping entries => indentedBlock depth "\x7b" (indentedEntries depth entries) "\x7d"
  | .null => "null"
  | .boolean value => if value then "true" else "false"
  | .integer value => toString value
  | .float value => Decimal.floatText value
  | .text value => Text.jsonQuoted value

/-- The texts of the elements of a sequence, over several lines. -/
def indentedAll (depth : Nat) : List Value → List String
  | [] => []
  | element :: rest => indentedAt (depth + 1) element :: indentedAll depth rest

/-- The texts of the entries of a mapping, over several lines. -/
def indentedEntries (depth : Nat) : List (Key × Value) → List String
  | [] => []
  | (key, value) :: rest =>
      (Text.jsonQuoted (keyText key) ++ ": " ++ indentedAt (depth + 1) value) ::
        indentedEntries depth rest

end

/-- A value as text over several lines. -/
def indented (value : Value) : String := indentedAt 0 value

end LoopHoist.Json
