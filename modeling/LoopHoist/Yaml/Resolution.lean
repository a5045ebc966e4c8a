import LoopHoist.Document.Value
import LoopHoist.Yaml.Node

/-!
# What nodes stand for

A plain scalar without a tag stands for a null, a truth value or a number if it looks like one, and for
itself otherwise; every other scalar without a tag stands for itself.  A tag can ask for one of these
types, and a scalar with such a tag has to look like one.

A node with a tag of its own invention, which starts with an exclamation mark, stands for nothing that a
document could hold.  Neither does a number that is too large for 64 bits.
-/

namespace LoopHoist.Yaml

open Document (Value Key Found)

/-! ## Words and numbers -/

/-- Whether a text is a word for null. -/
def isNullWord (text : String) : Bool := ["null", "Null", "NULL", "~"].contains text

/-- The truth value that a text is a word for. -/
def truthWord? (text : String) : Option Bool :=
  if ["true", "True", "TRUE"].contains text then some true
  else if ["false", "False", "FALSE"].contains text then some false
  else none

/-- Whether characters are several digits of which the first is a zero.  They are not taken for a
number, with or without a sign. -/
def hasLeadingZero (cs : List Char) : Bool :=
  let digits (cs : List Char) := match cs with
    | '0' :: c :: rest => (c :: rest).all Decimal.isDigit
    | _ => false
  match cs with
  | '-' :: rest => digits rest
  | '+' :: rest => digits rest
  | cs => digits cs

/-- The value of a digit that is smaller than the base. -/
def digitIn? (base : Nat) (c : Char) : Option Nat :=
  (Json.hexDigit? c).filter (· < base)

/-- The value of digits in a base, of which there has to be one. -/
def digitsIn? (base : Nat) : List Char → Option Nat
  | [] => none
  | cs => cs.foldlM (fun acc c => (digitIn? base c).map (base * acc + ·)) 0

/-- The value of a numeral without a sign: decimal digits, or digits after the mark of their base. -/
def magnitude? : List Char → Option Nat
  | '0' :: 'x' :: rest => digitsIn? 16 rest
  | '0' :: 'o' :: rest => digitsIn? 8 rest
  | '0' :: 'b' :: rest => digitsIn? 2 rest
  | cs => if hasLeadingZero cs then none else digitsIn? 10 cs

/-- The value of a numeral that has no minus sign. -/
def natural? : List Char → Option Nat
  | '+' :: rest => magnitude? rest
  | cs => magnitude? cs

/-- The value of a numeral. -/
def integer? : List Char → Option Int
  | '-' :: rest => (magnitude? rest).map fun n => -(n : Int)
  | cs => (natural? cs).map Int.ofNat

/-- Whether 64 bits hold a number, with a sign if it is negative. -/
def isLong (n : Int) : Bool := -Int.pow 2 63 ≤ n && n < Int.pow 2 64

/-- Whether 128 bits hold a number, with a sign if it is negative. -/
def isVeryLong (n : Int) : Bool := -Int.pow 2 127 ≤ n && n < Int.pow 2 128

/-! ## Decimal fractions -/

/-- A decimal fraction as it is written. -/
structure Fraction where
  negative : Bool
  /-- All digits, those after the point included. -/
  digits : List Char
  exponent : Int

/-- The exponent after its letter. -/
def exponentPart? (cs : List Char) : Option Int :=
  match cs with
  | '-' :: rest => (Decimal.natural? rest).map fun n => -(n : Int)
  | '+' :: rest => (Decimal.natural? rest).map Int.ofNat
  | cs => (Decimal.natural? cs).map Int.ofNat

/-- A decimal fraction without a sign.  Digits have to stand on at least one side of the point. -/
def unsignedFraction? (negative : Bool) (cs : List Char) : Option Fraction := do
  let whole := cs.takeWhile Decimal.isDigit
  let rest := cs.dropWhile Decimal.isDigit
  let (places, rest) := match rest with
    | '.' :: rest => (rest.takeWhile Decimal.isDigit, rest.dropWhile Decimal.isDigit)
    | rest => ([], rest)
  if whole.isEmpty && places.isEmpty then none
  let exponent ← match rest with
    | [] => some 0
    | 'e' :: rest => exponentPart? rest
    | 'E' :: rest => exponentPart? rest
    | _ => none
  return ⟨negative, whole ++ places, exponent - places.length⟩

/-- A decimal fraction. -/
def fraction? : List Char → Option Fraction
  | '-' :: rest => unsignedFraction? true rest
  | '+' :: rest => unsignedFraction? false rest
  | cs => unsignedFraction? false cs

/-- The double nearest to a decimal fraction, if it is in range.  A fraction of at least `10 ^ 400` is out
of range, and one below `10 ^ (-400)` is nearest to zero. -/
def Fraction.float? (fraction : Fraction) : Option Float :=
  let n := (Decimal.natural? fraction.digits).getD 0
  let magnitude : Int := (toString n).length + fraction.exponent
  let x : Option Float :=
    if n = 0 || magnitude < -400 then some 0
    else if 400 < magnitude then none
    else
      let x :=
        if fraction.exponent < 0 then Float.ofScientific n true (-fraction.exponent).toNat
        else Float.ofScientific n false fraction.exponent.toNat
      if x.isFinite then some x else none
  x.map fun x => if fraction.negative then -x else x

/-- The number beyond all others. -/
def infinity : Float := 1 / 0

/-- The double that a text is written for. -/
def float? (text : String) : Option Float :=
  if [".inf", ".Inf", ".INF", "+.inf", "+.Inf", "+.INF"].contains text then some infinity
  else if ["-.inf", "-.Inf", "-.INF"].contains text then some (-infinity)
  else if [".nan", ".NaN", ".NAN"].contains text then some (0 / 0)
  else (fraction? text.toList).bind Fraction.float?

/-! ## Scalars -/

/-- What an integer stands for, if it fits. -/
def integerValue? (n : Int) : Option Value := if isLong n then some (.integer n) else none

/-- What a plain scalar without a tag stands for. -/
def plainValue? (text : String) : Option Value :=
  let cs := text.toList
  if text.isEmpty || isNullWord text then some .null
  else
    match truthWord? text, (integer? cs).filter isVeryLong with
    | some b, _ => some (.boolean b)
    | none, some n => integerValue? n
    | none, none =>
        match if hasLeadingZero cs then none else float? text with
        | some x => some (.float x)
        | none => some (.text text)

/-- A tag of the core vocabulary. -/
def coreTag (name : String) : String := "tag:yaml.org,2002:" ++ name

/-- What a scalar with a tag stands for. -/
def taggedValue? (tag text : String) : Option Value :=
  if tag.startsWith "!" then none
  else if tag == coreTag "bool" then (truthWord? text).map .boolean
  else if tag == coreTag "int" then (integer? text.toList).bind integerValue?
  else if tag == coreTag "float" then (float? text).map .float
  else if tag == coreTag "null" then if isNullWord text then some .null else none
  else some (.text text)

/-- What a scalar stands for. -/
def scalarValue? (tag : Option String) (text : String) (style : Style) : Option Value :=
  match tag with
  | some tag => taggedValue? tag text
  | none => if style = .plain then plainValue? text else some (.text text)

/-! ## Collections -/

/-- The key that a value makes: a text is a name, and a number that is not negative is a position. -/
def keyOf (value : Value) : Key :=
  match value with
  | .text text => .name text
  | .integer n => if 0 ≤ n then .position n.toNat else .other (.integer n)
  | other => .other other.found

/-- Whether a tag is of a document's own invention. -/
def isOwnTag (tag : Option String) : Bool := tag.any (·.startsWith "!")

namespace Node

mutual

/-- What a node stands for, with at most `depth` levels of sequences and mappings. -/
def valueWithin? (depth : Nat) : Node → Option Value
  | .scalar tag text style => scalarValue? tag text style
  | .sequence tag elements =>
      if depth = 0 || isOwnTag tag then none
      else (valuesWithin? (depth - 1) elements).map .sequence
  | .mapping tag entries =>
      if depth = 0 || isOwnTag tag then none
      else (entriesWithin? (depth - 1) entries).map .mapping
  | .cycle => none

/-- What the elements of a sequence stand for. -/
def valuesWithin? (depth : Nat) : List Node → Option (List Value)
  | [] => some []
  | element :: rest => do
      let value ← element.valueWithin? depth
      let values ← valuesWithin? depth rest
      return value :: values

/-- What the entries of a mapping stand for. -/
def entriesWithin? (depth : Nat) : List (Node × Node) → Option (List (Key × Value))
  | [] => some []
  | (key, node) :: rest => do
      let key ← key.valueWithin? depth
      let value ← node.valueWithin? depth
      let entries ← entriesWithin? depth rest
      return (keyOf key, value) :: entries

end

/-- How deeply sequences and mappings may be nested. -/
def nestingLimit : Nat := 128

/-- What a node stands for. -/
def value? (node : Node) : Option Value := node.valueWithin? nestingLimit

end Node

end LoopHoist.Yaml
