import LoopHoist.Json.Text
import LoopHoist.Yaml.Marked

/-!
# Scalars as they are written

A scalar is a piece of text.  It can be written plainly, between single or double quotes, or as a block of
lines.  Over several lines a plain or quoted scalar is folded: one line break between words is a blank, and
of several breaks all but the first stay.  A block keeps its line breaks or folds them, as its header says.
-/

namespace LoopHoist.Yaml

/-! ## Space between the words of a scalar -/

/-- The space read since the last word. -/
inductive Gap where
  /-- Blanks within a line. -/
  | blanks (cs : List Char)
  /-- Line breaks: the first one, unless it was escaped, and those after it. -/
  | breaks (first : Option Char) (later : List Char)

namespace Gap

/-- No space. -/
def none : Gap := .blanks []

/-- Whether a line was ended. -/
def hasBreak : Gap → Bool
  | .blanks _ => false
  | .breaks .. => true

/-- A blank more.  Blanks around a line break do not count. -/
def addBlank (c : Char) : Gap → Gap
  | .blanks cs => .blanks (cs ++ [c])
  | .breaks first later => .breaks first later

/-- A line break more. -/
def addBreak (c : Char) : Gap → Gap
  | .blanks _ => .breaks (some c) []
  | .breaks first later => .breaks first (later ++ [c])

/-- What the space contributes to the scalar. -/
def text : Gap → List Char
  | .blanks cs => cs
  | .breaks (some '\n') [] => [' ']
  | .breaks (some '\n') later => later
  | .breaks first later => first.toList ++ later

end Gap

/-- How a scalar is written. -/
inductive Style where
  | plain
  | quoted
  /-- A block that keeps its line breaks. -/
  | literal
  /-- A block that folds its line breaks. -/
  | folded
deriving DecidableEq

/-- A scalar that was read, and what comes after it. -/
structure ScalarRead where
  text : String
  rest : Input
  /-- Whether the space after the scalar, which was read too, ends its line. -/
  endsLine : Bool

/-! ## Plain scalars -/

/-- Whether a character divides the parts of a flow collection. -/
def isFlowMark (c : Char) : Bool :=
  c == ',' || c == '[' || c == ']' || c == '\x7b' || c == '\x7d'

/-- Reads a plain scalar on.  `indent` is the least column of its further lines outside of flow
collections.  `start` says that the next word starts here. -/
def plainFrom? (flow : Bool) (indent : Nat) (done : List Char) (gap : Gap) (start : Bool) :
    Input → Option ScalarRead
  | [] => some ⟨String.ofList done, [], gap.hasBreak⟩
  | m :: rest =>
      let input : Input := m :: rest
      let stop := some ⟨String.ofList done, input, gap.hasBreak⟩
      let c := m.char
      if isBlank c then
        if gap.hasBreak && m.column < indent && c == '\t' then Option.none
        else plainFrom? flow indent done (gap.addBlank c) true rest
      else if isBreak c then plainFrom? flow indent done (gap.addBreak c) true rest
      else if start && !done.isEmpty && !flow && m.column < indent then stop
      else if start && (input.atDocumentMark || c == '#') then stop
      else if flow && c == ':' &&
          (match input.peek? 1 with | some c => c == '?' || isFlowMark c | Option.none => false) then
        Option.none
      else if (c == ':' && input.endsWordAt 1) || (flow && isFlowMark c) then stop
      else plainFrom? flow indent (done ++ gap.text ++ [c]) .none false rest

/-- Reads a plain scalar. -/
def plain? (flow : Bool) (indent : Nat) (input : Input) : Option ScalarRead :=
  plainFrom? flow indent [] .none true input

/-! ## Quoted scalars -/

/-- The character that an escape with one letter stands for. -/
def escapedCharacter? : Char → Option Char
  | '0' => some '\x00'
  | 'a' => some '\x07'
  | 'b' => some '\x08'
  | 't' => some '\t'
  | '\t' => some '\t'
  | 'n' => some '\n'
  | 'v' => some '\x0b'
  | 'f' => some '\x0c'
  | 'r' => some '\r'
  | 'e' => some '\x1b'
  | ' ' => some ' '
  | '"' => some '"'
  | '/' => some '/'
  | '\\' => some '\\'
  | 'N' => some '\x85'
  | '_' => some '\xa0'
  | 'L' => some '\u2028'
  | 'P' => some '\u2029'
  | _ => Option.none

/-- How many hexadecimal digits follow an escape that gives a code point. -/
def codeLength? : Char → Option Nat
  | 'x' => some 2
  | 'u' => some 4
  | 'U' => some 8
  | _ => Option.none

/-- The character with the code point that these digits give. -/
def codePoint? (length : Nat) (digits : List Char) : Option Char := do
  let code ← Json.hexValue? digits
  if digits.length == length && code.isValidChar then some (Char.ofNat code) else Option.none

/-- Reads on a scalar between single quotes. -/
def singleQuotedFrom? (done : List Char) (gap : Gap) : Input → Option ScalarRead
  | [] => Option.none
  | m :: rest =>
      let input : Input := m :: rest
      let c := m.char
      if isBlank c then singleQuotedFrom? done (gap.addBlank c) rest
      else if isBreak c then singleQuotedFrom? done (gap.addBreak c) rest
      else if input.atDocumentMark then Option.none
      else
        let done := done ++ gap.text
        if c == '\'' then
          match rest with
          | next :: rest' =>
              if next.char == '\'' then singleQuotedFrom? (done ++ ['\'']) .none rest'
              else some ⟨String.ofList done, rest, false⟩
          | [] => some ⟨String.ofList done, [], false⟩
        else singleQuotedFrom? (done ++ [c]) .none rest

/-- Reads on a scalar between double quotes. -/
def doubleQuotedFrom? (done : List Char) (gap : Gap) (input : Input) : Option ScalarRead :=
  match input with
  | [] => Option.none
  | m :: rest =>
      let c := m.char
      if isBlank c then doubleQuotedFrom? done (gap.addBlank c) rest
      else if isBreak c then doubleQuotedFrom? done (gap.addBreak c) rest
      else if Input.atDocumentMark (m :: rest) then Option.none
      else
        let done := done ++ gap.text
        if c == '"' then some ⟨String.ofList done, rest, false⟩
        else if c == '\\' then
          match rest with
          | [] => Option.none
          | next :: rest' =>
              if isBreak next.char then doubleQuotedFrom? done (.breaks Option.none []) rest'
              else
                match codeLength? next.char with
                | some length =>
                    match codePoint? length ((rest'.take length).map Marked.char) with
                    | some c => doubleQuotedFrom? (done ++ [c]) .none (rest'.drop length)
                    | Option.none => Option.none
                | Option.none =>
                    match escapedCharacter? next.char with
                    | some c => doubleQuotedFrom? (done ++ [c]) .none rest'
                    | Option.none => Option.none
        else doubleQuotedFrom? (done ++ [c]) .none rest
termination_by input.length
decreasing_by all_goals simp only [List.length_cons, List.length_drop]; omega

/-! ## Blocks -/

/-- What becomes of the line breaks at the end of a block. -/
inductive Chomping where
  | strip
  | clip
  | keep
deriving DecidableEq

/-- The sign that says what becomes of the last line breaks. -/
def chomping? : Char → Option Chomping
  | '-' => some .strip
  | '+' => some .keep
  | _ => Option.none

/-- The digit that says how far a block is indented. -/
def increment? (c : Char) : Option Nat :=
  if '1' ≤ c ∧ c ≤ '9' then some (c.toNat - '0'.toNat) else Option.none

/-- What the header of a block says after its first character, and what comes after it.  The two
indicators can stand in either order. -/
def blockHeader (input : Input) : Chomping × Option Nat × Input :=
  let chompingOf (input : Input) := (input.peek? 0).bind chomping?
  let incrementOf (input : Input) := (input.peek? 0).bind increment?
  match chompingOf input with
  | some chomping =>
      match incrementOf (input.drop 1) with
      | some increment => (chomping, some increment, input.drop 2)
      | Option.none => (chomping, Option.none, input.drop 1)
  | Option.none =>
      match incrementOf input with
      | some increment =>
          match chompingOf (input.drop 1) with
          | some chomping => (chomping, some increment, input.drop 2)
          | Option.none => (.clip, some increment, input.drop 1)
      | Option.none => (.clip, Option.none, input)

/-- Indentation and empty lines that were read: the furthest column reached, the line breaks, and what
comes after. -/
structure Margin where
  furthest : Nat
  breaks : List Char
  rest : Input

/-- Reads indentation, up to the given column if it is known, and empty lines. -/
def margin? (indent : Option Nat) (furthest : Nat) (breaks : List Char) : Input → Option Margin
  | [] => some ⟨furthest, breaks, []⟩
  | m :: rest =>
      let within := indent.all fun column => m.column < column
      if within && m.char == ' ' then margin? indent furthest breaks rest
      else
        let furthest := max furthest m.column
        if within && m.char == '\t' then Option.none
        else if isBreak m.char then margin? indent furthest (breaks ++ [m.char]) rest
        else some ⟨furthest, breaks, m :: rest⟩

/-- A block that is being read: its text so far, the break after its last line, the breaks of the empty
lines after that, and whether its last line started with a blank. -/
structure BlockText where
  done : List Char
  lineBreak : Option Char
  emptyLines : List Char
  blankBefore : Bool

namespace BlockText

/-- The text of a block up to a new line that starts with `c`. -/
def upTo (block : BlockText) (folded : Bool) (c : Char) : List Char :=
  let joined :=
    if folded && block.lineBreak == some '\n' && !block.blankBefore && !isBlank c then
      if block.emptyLines.isEmpty then [' '] else []
    else block.lineBreak.toList
  block.done ++ joined ++ block.emptyLines

/-- The text of a whole block. -/
def finish (block : BlockText) (chomping : Chomping) : List Char :=
  match chomping with
  | .strip => block.done
  | .clip => block.done ++ block.lineBreak.toList
  | .keep => block.done ++ block.lineBreak.toList ++ block.emptyLines

end BlockText

/-- Reads the lines of a block that start at the column `indent`. -/
def blockLines? (folded : Bool) (indent : Nat) (block : BlockText) :
    Nat → Input → Option (BlockText × Input)
  | 0, _ => Option.none
  | _, [] => some (block, [])
  | fuel + 1, m :: rest =>
      if m.column != indent then some (block, m :: rest)
      else
        let line := (m :: rest).takeWhile fun m => !isBreak m.char
        let after := Input.skipToBreak (m :: rest)
        match margin? (some indent) 0 [] (after.drop 1) with
        | Option.none => Option.none
        | some margin =>
            blockLines? folded indent
              { done := block.upTo folded m.char ++ line.map Marked.char
                lineBreak := after.peek? 0
                emptyLines := margin.breaks
                blankBefore := isBlank m.char }
              fuel margin.rest

/-- Reads a block after its first character, inside of something indented by `outer`. -/
def block? (folded : Bool) (outer : Int) (input : Input) : Option ScalarRead := do
  let (chomping, increment, input) := blockHeader input
  let input ← input.skipLineEnd?
  let given := increment.map fun increment =>
    if 0 ≤ outer then outer.toNat + increment else increment
  let margin ← margin? given 0 [] input
  let indent := given.getD (max margin.furthest (max (outer + 1).toNat 1))
  let (block, rest) ← blockLines? folded indent ⟨[], Option.none, margin.breaks, false⟩
    (input.length + 1) margin.rest
  return ⟨String.ofList (block.finish chomping), rest, false⟩

end LoopHoist.Yaml
