import LoopHoist.Json.Numeral

/-!
# JSON texts

Reading a JSON text goes in two steps.  `Tree.parse?` finds the structure of a text: it checks the
grammar of values, numerals, strings and escapes, and keeps everything that is written.  `Tree.value?`
then says what value the structure stands for, which can still fail: a numeral can be out of range, an
escape can be half of a character, and arrays and objects can be nested too deeply.

The steps are apart because a reader that passes over a part of a text wants only the first one for it.
-/

namespace LoopHoist.Json

open Document (Value Key)

/-- The structure of a JSON text. -/
inductive Tree where
  | null
  | boolean (value : Bool)
  | number (numeral : Numeral)
  /-- A string; half a character in it leaves it without a content. -/
  | text (content : Option String)
  | array (elements : List Tree)
  | object (entries : List (Option String × Tree))

instance : Inhabited Tree := ⟨.null⟩

/-! ## Blanks and words -/

/-- Whether a character may stand between the parts of a text. -/
def isBlank (c : Char) : Bool := c == ' ' || c == '\t' || c == '\n' || c == '\r'

/-- A text after its leading blanks. -/
def skipBlanks (cs : List Char) : List Char := cs.dropWhile isBlank

/-- The rest of a text that starts with this word. -/
def dropWord? (word : String) (cs : List Char) : Option (List Char) :=
  let letters := word.toList
  if letters.isPrefixOf cs then some (cs.drop letters.length) else none

/-! ## Strings -/

/-- The value of a hexadecimal digit. -/
def hexDigit? (c : Char) : Option Nat :=
  if '0' ≤ c ∧ c ≤ '9' then some (c.toNat - '0'.toNat)
  else if 'a' ≤ c ∧ c ≤ 'f' then some (c.toNat - 'a'.toNat + 10)
  else if 'A' ≤ c ∧ c ≤ 'F' then some (c.toNat - 'A'.toNat + 10)
  else none

/-- The value of a string of hexadecimal digits. -/
def hexValue? (digits : List Char) : Option Nat :=
  digits.foldlM (fun acc c => (hexDigit? c).map (16 * acc + ·)) 0

/-- A piece of a string: a character, or a 16-bit unit given by its number. -/
inductive Piece where
  | character (c : Char)
  | unit (code : Nat)

/-- The character that a one-letter escape stands for. -/
def escaped? : Char → Option Char
  | '"' => some '"'
  | '\\' => some '\\'
  | '/' => some '/'
  | 'b' => some '\x08'
  | 'f' => some '\x0c'
  | 'n' => some '\n'
  | 'r' => some '\r'
  | 't' => some '\t'
  | _ => none

/-- The pieces of a string up to its closing quote, and the rest of the text. -/
def pieces? : List Char → Option (List Piece × List Char)
  | [] => none
  | '"' :: rest => some ([], rest)
  | '\\' :: 'u' :: a :: b :: c :: d :: rest => do
      let code ← hexValue? [a, b, c, d]
      let (pieces, rest) ← pieces? rest
      return (.unit code :: pieces, rest)
  | '\\' :: c :: rest => do
      let c ← escaped? c
      let (pieces, rest) ← pieces? rest
      return (.character c :: pieces, rest)
  | c :: rest =>
      if c < ' ' then none
      else do
        let (pieces, rest) ← pieces? rest
        return (.character c :: pieces, rest)

/-- Whether a 16-bit unit is the first half of a character. -/
def isHighHalf (code : Nat) : Bool := 0xd800 ≤ code && code < 0xdc00

/-- Whether a 16-bit unit is the second half of a character. -/
def isLowHalf (code : Nat) : Bool := 0xdc00 ≤ code && code < 0xe000

/-- The characters that pieces stand for, if every half of a character has its other half. -/
def characters? : List Piece → Option (List Char)
  | [] => some []
  | .character c :: rest => (characters? rest).map (c :: ·)
  | .unit high :: .unit low :: rest =>
      if isHighHalf high then
        if isLowHalf low then
          let c := Char.ofNat (0x10000 + (high - 0xd800) * 0x400 + (low - 0xdc00))
          (characters? rest).map (c :: ·)
        else none
      else if isLowHalf high then none
      else (characters? (.unit low :: rest)).map (Char.ofNat high :: ·)
  | .unit code :: rest =>
      if isHighHalf code || isLowHalf code then none
      else (characters? rest).map (Char.ofNat code :: ·)

/-- The content of a string after its opening quote, and the rest of the text. -/
def string? (cs : List Char) : Option (Option String × List Char) := do
  let (pieces, rest) ← pieces? cs
  return ((characters? pieces).map String.ofList, rest)

/-! ## Numerals -/

/-- The digits that a text starts with, of which there must be one, and the rest. -/
def digits? (cs : List Char) : Option (List Char × List Char) :=
  match cs.takeWhile Decimal.isDigit with
  | [] => none
  | digits => some (digits, cs.dropWhile Decimal.isDigit)

/-- The digits before the point; a zero stands alone. -/
def wholeDigits? : List Char → Option (List Char × List Char)
  | '0' :: rest =>
      match rest.head? with
      | some c => if Decimal.isDigit c then none else some (['0'], rest)
      | none => some (['0'], rest)
  | cs => digits? cs

/-- The digits after a point. -/
def fraction? : List Char → Option (List Char × List Char)
  | '.' :: rest => digits? rest
  | cs => some ([], cs)

/-- The exponent. -/
def exponent? (cs : List Char) : Option (Option (Bool × List Char) × List Char) :=
  let signed (rest : List Char) := match rest with
    | '-' :: rest => (digits? rest).map fun (digits, rest) => (some (true, digits), rest)
    | '+' :: rest => (digits? rest).map fun (digits, rest) => (some (false, digits), rest)
    | rest => (digits? rest).map fun (digits, rest) => (some (false, digits), rest)
  match cs with
  | 'e' :: rest => signed rest
  | 'E' :: rest => signed rest
  | cs => some (none, cs)

/-- The numeral that a text starts with, and the rest. -/
def numeral? (cs : List Char) : Option (Numeral × List Char) := do
  let (negative, cs) := match cs with
    | '-' :: rest => (true, rest)
    | cs => (false, cs)
  let (whole, cs) ← wholeDigits? cs
  let (fraction, cs) ← fraction? cs
  let (exponent, cs) ← exponent? cs
  return (⟨negative, whole, fraction, exponent⟩, cs)

/-! ## Values

The fuel bounds the number of nested calls.  Every call reads at least one character before it makes two
others, so twice the length of the text is enough. -/

mutual

/-- The value that a text starts with, after blanks, and the rest. -/
def tree? : Nat → List Char → Option (Tree × List Char)
  | 0, _ => none
  | fuel + 1, cs =>
      match skipBlanks cs with
      | [] => none
      | 'n' :: rest => (dropWord? "ull" rest).map fun rest => (.null, rest)
      | 't' :: rest => (dropWord? "rue" rest).map fun rest => (.boolean true, rest)
      | 'f' :: rest => (dropWord? "alse" rest).map fun rest => (.boolean false, rest)
      | '"' :: rest => (string? rest).map fun (content, rest) => (.text content, rest)
      | '[' :: rest =>
          match skipBlanks rest with
          | ']' :: rest => some (.array [], rest)
          | rest => (elements? fuel rest).map fun (elements, rest) => (.array elements, rest)
      | '\x7b' :: rest =>
          match skipBlanks rest with
          | '\x7d' :: rest => some (.object [], rest)
          | rest => (entries? fuel rest).map fun (entries, rest) => (.object entries, rest)
      | cs => (numeral? cs).map fun (numeral, rest) => (.number numeral, rest)

/-- The elements of an array up to its closing bracket, of which there must be one. -/
def elements? : Nat → List Char → Option (List Tree × List Char)
  | 0, _ => none
  | fuel + 1, cs => do
      let (element, rest) ← tree? fuel cs
      match skipBlanks rest with
      | ']' :: rest => return ([element], rest)
      | ',' :: rest =>
          let (elements, rest) ← elements? fuel rest
          return (element :: elements, rest)
      | _ => none

/-- The entries of an object up to its closing brace, of which there must be one. -/
def entries? : Nat → List Char → Option (List (Option String × Tree) × List Char)
  | 0, _ => none
  | fuel + 1, cs =>
      match skipBlanks cs with
      | '"' :: rest => do
          let (key, rest) ← string? rest
          match skipBlanks rest with
          | ':' :: rest =>
              let (value, rest) ← tree? fuel rest
              match skipBlanks rest with
              | '\x7d' :: rest => return ([(key, value)], rest)
              | ',' :: rest =>
                  let (entries, rest) ← entries? fuel rest
                  return ((key, value) :: entries, rest)
              | _ => none
          | _ => none
      | _ => none

end

namespace Tree

/-- The structure of a text that is one JSON value. -/
def parse? (text : String) : Option Tree := do
  let cs := text.toList
  let (tree, rest) ← tree? (2 * cs.length + 2) cs
  if (skipBlanks rest).isEmpty then some tree else none

/-- How deeply arrays and objects may be nested. -/
def nestingLimit : Nat := 127

mutual

/-- The value that a structure stands for, with at most `depth` levels of arrays and objects. -/
def valueWithin? (depth : Nat) : Tree → Option Value
  | .null => some .null
  | .boolean value => some (.boolean value)
  | .number numeral => numeral.value?
  | .text content => content.map .text
  | .array elements => if depth = 0 then none else (valuesWithin? (depth - 1) elements).map .sequence
  | .object entries => if depth = 0 then none else (entriesWithin? (depth - 1) entries).map .mapping

/-- The values of the elements of an array. -/
def valuesWithin? (depth : Nat) : List Tree → Option (List Value)
  | [] => some []
  | element :: rest => do
      let value ← element.valueWithin? depth
      let values ← valuesWithin? depth rest
      return value :: values

/-- The entries of an object. -/
def entriesWithin? (depth : Nat) : List (Option String × Tree) → Option (List (Key × Value))
  | [] => some []
  | (key, tree) :: rest => do
      let key ← key
      let value ← tree.valueWithin? depth
      let entries ← entriesWithin? depth rest
      return (.name key, value) :: entries

end

/-- The value that a structure stands for. -/
def value? (tree : Tree) : Option Value := tree.valueWithin? nestingLimit

/-- A structure without what a reader of these fields passes over: the values of all other entries. -/
def keepFields (fields : List String) : Tree → Tree
  | .object entries =>
      .object (entries.map fun (key, tree) =>
        (key, if key.all fields.contains then tree else .null))
  | tree => tree

end Tree

end LoopHoist.Json
