import LoopHoist.Decimal.Numeral
import LoopHoist.Document.Value

/-!
# JSON numerals

A numeral is kept as it is written until someone needs its value.  Without a fraction and an exponent it
is an integer when 64 bits can hold it: unsigned without a sign, signed and not zero with one.  Every
other numeral is a double, and one beyond the range of doubles has no value.

## How a double is found

The first digits that 64 bits can hold make up the significand, and every other digit before the point
counts as a power of ten.  The significand is rounded to a double, then multiplied or divided by the
power of ten, and rounded again.
-/

namespace LoopHoist.Json

/-- A numeral as it is written. -/
structure Numeral where
  negative : Bool
  /-- The digits before the point. -/
  whole : List Char
  /-- The digits after the point; none when there is no point. -/
  fraction : List Char
  /-- The exponent, if there is one: whether it is negative, and its digits. -/
  exponent : Option (Bool × List Char)

/-- The number that a digit stands for. -/
def digitValue (c : Char) : Nat := (Decimal.digit? c).getD 0

/-- The greatest number that 64 bits hold. -/
def greatestSignificand : Nat := Nat.pow 2 64 - 1

/-- Takes digits into a significand as long as 64 bits can hold it.  Returns the significand, how many
digits were taken, and how many were left. -/
def takeDigits (significand : Nat) (taken : Nat) : List Char → Nat × Nat × Nat
  | [] => (significand, taken, 0)
  | c :: rest =>
      let next := 10 * significand + digitValue c
      if next ≤ greatestSignificand then takeDigits next (taken + 1) rest
      else (significand, taken, rest.length + 1)

/-- A power of ten, rounded. -/
def powerOfTen (exponent : Nat) : Float := Float.ofScientific 1 false exponent

/-- Divides by `10 ^ exponent`, for any exponent.  Three divisions by `10 ^ 308` leave nothing of a
64-bit significand, so no more are needed. -/
def divideByPower (x : Float) (exponent : Nat) : Nat → Float
  | 0 => 0
  | steps + 1 =>
      if exponent ≤ 308 then x / powerOfTen exponent
      else if x == 0 then x
      else divideByPower (x / powerOfTen 308) (exponent - 308) steps

/-- The double nearest to `significand * 10 ^ exponent` in the sense above, if it is in range. -/
def scale? (significand : Nat) (exponent : Int) : Option Float :=
  let x := (UInt64.ofNat significand).toFloat
  if exponent < 0 then some (divideByPower x (-exponent).toNat 4)
  else if 308 < exponent then if significand = 0 then some 0 else none
  else
    let scaled := x * powerOfTen exponent.toNat
    if scaled.isInf then none else some scaled

namespace Numeral

/-- The number that the digits of the exponent stand for. -/
def power (numeral : Numeral) : Int :=
  match numeral.exponent with
  | none => 0
  | some (negative, digits) =>
      let n : Int := (Decimal.natural? digits).getD 0
      if negative then -n else n

/-- The value of a numeral as a double. -/
def float? (numeral : Numeral) : Option Float :=
  let (whole, _, left) := takeDigits 0 0 numeral.whole
  let (significand, places, _) := takeDigits whole 0 numeral.fraction
  let exponent := (left : Int) - places + numeral.power
  (scale? significand exponent).map fun x => if numeral.negative then -x else x

/-- The value of a numeral. -/
def value? (numeral : Numeral) : Option Document.Value :=
  let (n, _, left) := takeDigits 0 0 numeral.whole
  if numeral.fraction.isEmpty && numeral.exponent.isNone && left == 0 then
    if !numeral.negative then some (.integer n)
    else if 0 < n ∧ n ≤ Nat.pow 2 63 then some (.integer (-(n : Int)))
    else numeral.float?.map .float
  else numeral.float?.map .float

end Numeral

end LoopHoist.Json
