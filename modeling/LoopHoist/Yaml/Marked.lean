/-!
# Characters and where they stand

The meaning of a YAML text depends on lines and columns, so a text is turned into a list of characters
each of which knows where it stands.  Line breaks are unified on the way: a carriage return, with or
without a line feed after it, and a next-line character become a line feed.  The line and paragraph
separators are breaks too, but stay what they are.

A text with control characters in it is no YAML text.
-/

namespace LoopHoist.Yaml

/-- A character and where it stands. -/
structure Marked where
  char : Char
  /-- The number of characters before it. -/
  index : Nat
  line : Nat
  column : Nat

/-- A text, or what is left of one. -/
abbrev Input := List Marked

/-! ## Sorts of characters -/

/-- Whether a character ends a line. -/
def isBreak (c : Char) : Bool :=
  c == '\n' || c == '\r' || c == '\x85' || c == '\u2028' || c == '\u2029'

/-- Whether a character is a blank or a tab. -/
def isBlank (c : Char) : Bool := c == ' ' || c == '\t'

/-- Whether a character can stand in the name of an anchor, a directive or a tag handle. -/
def isWordCharacter (c : Char) : Bool :=
  ('0' ≤ c && c ≤ '9') || ('A' ≤ c && c ≤ 'Z') || ('a' ≤ c && c ≤ 'z') || c == '_' || c == '-'

/-- Whether a character can stand in a text at all. -/
def isAllowed (c : Char) : Bool :=
  c == '\t' || c == '\n' || c == '\r' || (' ' ≤ c && c ≤ '~') || c == '\x85' ||
    ('\xa0' ≤ c && c.toNat ≤ 0xfffd) || 0x10000 ≤ c.toNat

/-! ## Placing the characters of a text -/

/-- Places characters, of which the first stands at the given index, line and column. -/
def place (index line column : Nat) : List Char → Input
  | [] => []
  | '\r' :: '\n' :: rest => ⟨'\n', index, line, column⟩ :: place (index + 2) (line + 1) 0 rest
  | c :: rest =>
      if isBreak c then
        let unified := if c == '\u2028' || c == '\u2029' then c else '\n'
        ⟨unified, index, line, column⟩ :: place (index + 1) (line + 1) 0 rest
      else ⟨c, index, line, column⟩ :: place (index + 1) line (column + 1) rest

/-- The characters of a text, if all of them may stand in one. -/
def ofText? (text : String) : Option Input :=
  let cs := text.toList
  if cs.all isAllowed then some (place 0 0 0 cs) else none

/-! ## Looking ahead -/

namespace Input

/-- The character `n` places ahead. -/
def peek? (input : Input) (n : Nat) : Option Char := input[n]?.map Marked.char

/-- Whether the text ends `n` places ahead, or there is a blank or a break. -/
def endsWordAt (input : Input) (n : Nat) : Bool :=
  match input.peek? n with
  | none => true
  | some c => isBlank c || isBreak c

/-- Whether the next characters are these. -/
def startsWith (input : Input) (text : String) : Bool :=
  text.toList == (input.take text.length).map Marked.char

/-- Whether a line starts here with the mark of the start or the end of a document. -/
def atDocumentMark (input : Input) : Bool :=
  match input with
  | [] => false
  | first :: _ =>
      first.column == 0 && (input.startsWith "---" || input.startsWith "...") && input.endsWordAt 3

/-- The rest of the text after blanks and tabs. -/
def skipBlanks (input : Input) : Input := input.dropWhile fun m => isBlank m.char

/-- The rest of the text from the end of the line on. -/
def skipToBreak (input : Input) : Input := input.dropWhile fun m => !isBreak m.char

/-- The rest of the text after a line that holds nothing more but blanks and a comment. -/
def skipLineEnd? (input : Input) : Option Input :=
  let input := input.skipBlanks
  let input := if input.peek? 0 == some '#' then input.skipToBreak else input
  match input with
  | [] => some []
  | m :: rest => if isBreak m.char then some rest else none

end Input

end LoopHoist.Yaml
