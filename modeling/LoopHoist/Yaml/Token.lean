import LoopHoist.Decimal.Numeral
import LoopHoist.Yaml.Scalar

/-!
# Tokens

A YAML text is a sequence of tokens.  Some of them, such as the start of a block mapping, have no character
of their own in the text: columns give them away.  How they are found is the business of the lexer; this
module holds the tokens and reads those whose characters say all about them: names of anchors, tags and
directives.
-/

namespace LoopHoist.Yaml

/-- A token. -/
inductive Token where
  /-- The version of the language that a document is written in. -/
  | version (major minor : Nat)
  /-- What a handle stands for in the tags of a document. -/
  | handle (name uri : String)
  | documentStart
  | documentEnd
  | blockSequenceStart
  | blockMappingStart
  | blockEnd
  | flowSequenceStart
  | flowSequenceEnd
  | flowMappingStart
  | flowMappingEnd
  | blockEntry
  | flowEntry
  | key
  | value
  | alias (name : String)
  | anchor (name : String)
  /-- A tag is a handle, which may be empty, and a suffix. -/
  | tag (handle suffix : String)
  | scalar (text : String) (style : Style)
deriving DecidableEq

/-- A piece of text and what comes after it. -/
abbrev TextRead := String × Input

/-- The longest piece of text of characters of one sort. -/
def takeSort (sort : Char → Bool) (input : Input) : TextRead :=
  (String.ofList ((input.takeWhile fun m => sort m.char).map Marked.char),
    input.dropWhile fun m => sort m.char)

/-! ## Anchors -/

/-- Whether a character can follow the name of an anchor. -/
def endsAnchor (c : Char) : Bool :=
  isBlank c || isBreak c || "?:,]%@".toList.contains c || c == '\x7d' || c == '\x60'

/-- The name of an anchor. -/
def anchorName? (input : Input) : Option TextRead :=
  let (name, rest) := takeSort isWordCharacter input
  if !name.isEmpty && (rest.peek? 0).all endsAnchor then some (name, rest) else none

/-! ## Tags -/

/-- Whether a character can stand in a tag.  Between angle brackets the marks of flow collections can. -/
def isTagCharacter (bracketed : Bool) (c : Char) : Bool :=
  isWordCharacter c || ";/?:@&=+$.!~*'()%".toList.contains c ||
    (bracketed && (c == ',' || c == '[' || c == ']'))

/-- The bytes that the characters of a tag stand for: a percent sign and two hexadecimal digits are a
byte. -/
def tagBytes? : List Char → Option (List UInt8)
  | [] => some []
  | '%' :: high :: low :: rest => do
      let byte ← Json.hexValue? [high, low]
      let bytes ← tagBytes? rest
      return UInt8.ofNat byte :: bytes
  | c :: rest => do
      if c == '%' then none
      let bytes ← tagBytes? rest
      return (String.singleton c).toUTF8.toList ++ bytes

/-- A piece of a tag. -/
def tagText? (bracketed : Bool) (input : Input) : Option TextRead := do
  let (text, rest) := takeSort (isTagCharacter bracketed) input
  let bytes ← tagBytes? text.toList
  let text ← String.fromUTF8? bytes.toByteArray
  return (text, rest)

/-- The handle at the start of a tag, with its exclamation marks. -/
def handleName? (input : Input) : Option TextRead :=
  match input with
  | [] => none
  | m :: rest =>
      if m.char != '!' then none
      else
        let (name, rest) := takeSort isWordCharacter rest
        if rest.peek? 0 == some '!' then some ("!" ++ name ++ "!", rest.drop 1)
        else some ("!" ++ name, rest)

/-- Whether a handle is a name between exclamation marks, or two exclamation marks. -/
def isNamedHandle (handle : String) : Bool := 1 < handle.length && handle.endsWith "!"

/-- A tag between angle brackets, or else one with a handle, whatever comes after it. -/
def tagToken? (input : Input) : Option (Token × Input) :=
  if input.peek? 1 == some '<' then do
    let (uri, rest) ← tagText? true (input.drop 2)
    if uri.isEmpty || rest.peek? 0 != some '>' then none
    return (.tag "" uri, rest.drop 1)
  else do
    let (handle, rest) ← handleName? input
    let (text, rest) ← tagText? false rest
    if isNamedHandle handle then
      if text.isEmpty then none
      return (.tag handle text, rest)
    let suffix := String.ofList (handle.toList.drop 1) ++ text
    return (if suffix.isEmpty then .tag "" "!" else .tag "!" suffix, rest)

/-- A tag, which a blank or a break, or in a flow collection a comma, has to follow. -/
def tag? (flow : Bool) (input : Input) : Option (Token × Input) := do
  let (token, rest) ← tagToken? input
  if rest.endsWordAt 0 || (flow && rest.peek? 0 == some ',') then some (token, rest) else none

/-! ## Directives -/

/-- The most digits that a version number can have. -/
def versionDigits : Nat := 9

/-- A version number. -/
def versionNumber? (input : Input) : Option (Nat × Input) := do
  let (digits, rest) := takeSort Decimal.isDigit input
  if versionDigits < digits.length then none
  let n ← Decimal.natural? digits.toList
  return (n, rest)

/-- The directive that says which version of the language is meant. -/
def versionDirective? (input : Input) : Option (Token × Input) := do
  let (major, rest) ← versionNumber? input.skipBlanks
  if rest.peek? 0 != some '.' then none
  let (minor, rest) ← versionNumber? (rest.drop 1)
  return (.version major minor, rest)

/-- The directive that says what a handle stands for. -/
def handleDirective? (input : Input) : Option (Token × Input) := do
  let (handle, rest) ← handleName? input.skipBlanks
  if handle != "!" && !isNamedHandle handle then none
  if !(rest.peek? 0).any isBlank then none
  let (uri, rest) ← tagText? true rest.skipBlanks
  if uri.isEmpty || !rest.endsWordAt 0 then none
  return (.handle handle uri, rest)

/-- A directive, after its percent sign. -/
def directive? (input : Input) : Option (Token × Input) := do
  let (name, rest) := takeSort isWordCharacter input
  if !rest.endsWordAt 0 then none
  let (token, rest) ←
    if name == "YAML" then versionDirective? rest
    else if name == "TAG" then handleDirective? rest
    else none
  let rest ← rest.skipLineEnd?
  return (token, rest)

end LoopHoist.Yaml
