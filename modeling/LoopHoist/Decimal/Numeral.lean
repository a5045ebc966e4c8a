/-!
# Decimal numerals

What a string of decimal digits stands for, and which numbers are signed 64-bit integers.
-/

namespace LoopHoist.Decimal

/-- The number that one decimal digit stands for. -/
def digit? (c : Char) : Option Nat :=
  if '0' ≤ c ∧ c ≤ '9' then some (c.toNat - '0'.toNat) else none

/-- Whether a character is a decimal digit. -/
def isDigit (c : Char) : Bool := (digit? c).isSome

/-- The number that a string of decimal digits stands for, read on from `acc`. -/
def digitsFrom? (acc : Nat) : List Char → Option Nat
  | [] => some acc
  | c :: rest =>
      match digit? c with
      | some d => digitsFrom? (10 * acc + d) rest
      | none => none

/-- The number that a non-empty string of decimal digits stands for. -/
def natural? : List Char → Option Nat
  | [] => none
  | cs => digitsFrom? 0 cs

/-- The number that a decimal numeral with an optional sign stands for. -/
def integer? : List Char → Option Int
  | '+' :: cs => (natural? cs).map Int.ofNat
  | '-' :: cs => (natural? cs).map fun n => -Int.ofNat n
  | cs => (natural? cs).map Int.ofNat

/-- The least signed 64-bit integer. -/
def leastWord : Int := -Int.pow 2 63

/-- The greatest signed 64-bit integer. -/
def greatestWord : Int := Int.pow 2 63 - 1

/-- Whether a number is a signed 64-bit integer. -/
def isWord (n : Int) : Bool := leastWord ≤ n ∧ n ≤ greatestWord

end LoopHoist.Decimal
