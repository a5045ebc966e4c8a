/-!
# The shortest decimal of a binary number

A finite binary number `m · 2 ^ q` is written with the fewest decimal digits that read back as that
number.  A decimal reads back when it lies between the middle of the number and its predecessor and the
middle of the number and its successor; the middles themselves count when `m` is even.

On the grid of multiples of `10 ^ k` only the two neighbours of the number need to be looked at.  The
coarsest grid with a hit has the fewest digits, and of two hits the nearer is taken, or the even one when
both are equally near.

`floatText` lays the digits out: plainly while the point is within sixteen places of the first digit or
at most five places before it, and with an exponent otherwise.
-/

namespace LoopHoist.Decimal

/-- A number `coefficient * 10 ^ exponent`. -/
structure Scaled where
  coefficient : Nat
  exponent : Int
deriving DecidableEq, Repr

/-- A positive binary number as a fraction, with the ends of what reads back as it, all over one
denominator. -/
structure Rounding where
  value : Nat
  low : Nat
  high : Nat
  denominator : Nat
  /-- Whether the ends themselves read back. -/
  closed : Bool

/-- The fraction and the ends for `mantissa * 2 ^ exponent`.  Just above a power of two the numbers below
are twice as dense, except at the bottom of the range. -/
def Rounding.ofBinary (mantissa : Nat) (exponent : Int) (denseBelow : Bool) : Rounding :=
  let up := Nat.pow 2 exponent.toNat
  let down := Nat.pow 2 (-exponent).toNat
  { value := 4 * mantissa * up
    low := (4 * mantissa - if denseBelow then 1 else 2) * up
    high := (4 * mantissa + 2) * up
    denominator := 4 * down
    closed := mantissa % 2 == 0 }

/-- Whether `coefficient * 10 ^ exponent` reads back. -/
def Rounding.contains (r : Rounding) (coefficient : Nat) (exponent : Int) : Bool :=
  let up := Nat.pow 10 exponent.toNat
  let down := Nat.pow 10 (-exponent).toNat
  let x := coefficient * up * r.denominator
  let low := r.low * down
  let high := r.high * down
  if r.closed then low ≤ x && x ≤ high else low < x && x < high

/-- The decimal on the grid of multiples of `10 ^ exponent` that reads back, if there is one. -/
def Rounding.onGrid (r : Rounding) (exponent : Int) : Option Scaled :=
  let up := Nat.pow 10 exponent.toNat
  let down := Nat.pow 10 (-exponent).toNat
  let number := r.value * down
  let step := r.denominator * up
  let below := number / step
  let above := below + 1
  match r.contains below exponent, r.contains above exponent with
  | false, false => none
  | true, false => some ⟨below, exponent⟩
  | false, true => some ⟨above, exponent⟩
  | true, true =>
      let left := number - below * step
      let right := above * step - number
      if left < right then some ⟨below, exponent⟩
      else if right < left then some ⟨above, exponent⟩
      else some ⟨if below % 2 == 0 then below else above, exponent⟩

/-- The decimal with the fewest digits that reads back.  Doubles lie between `10 ^ -324` and
`10 ^ 309`, so the grids from `10 ^ 310` down to `10 ^ -330` hold one. -/
def Rounding.shortest (r : Rounding) : Scaled :=
  ((List.range 640).findSome? fun (i : Nat) => r.onGrid (310 - Int.ofNat i)).getD ⟨0, 0⟩

/-- Where the digits go.  `digits` are those of a number `digits * 10 ^ exponent`. -/
def layOut (digits : List Char) (exponent : Int) : String :=
  let length : Int := digits.length
  let point := length + exponent
  if 0 ≤ exponent ∧ point ≤ 16 then
    String.ofList (digits ++ List.replicate exponent.toNat '0') ++ ".0"
  else if 0 < point ∧ point ≤ 16 then
    String.ofList (digits.take point.toNat) ++ "." ++ String.ofList (digits.drop point.toNat)
  else if -5 < point ∧ point ≤ 0 then
    "0." ++ String.ofList (List.replicate (-point).toNat '0' ++ digits)
  else
    let fraction := match digits with
      | first :: rest@(_ :: _) => String.ofList [first, '.'] ++ String.ofList rest
      | _ => String.ofList digits
    fraction ++ "e" ++ toString (point - 1)

/-- The text of a finite double: the fewest digits that read back, with a point or an exponent. -/
def floatText (x : Float) : String :=
  let bits := x.toBits.toNat
  let sign := if bits / Nat.pow 2 63 = 1 then "-" else ""
  let biased := bits / Nat.pow 2 52 % Nat.pow 2 11
  let fraction := bits % Nat.pow 2 52
  if biased = 0 ∧ fraction = 0 then sign ++ "0.0"
  else
    let mantissa := if biased = 0 then fraction else Nat.pow 2 52 + fraction
    let exponent : Int := (if biased = 0 then 1 else biased : Nat) - 1075
    let r := Rounding.ofBinary mantissa exponent (fraction = 0 ∧ 1 < biased)
    let shortest := r.shortest
    sign ++ layOut (Nat.toDigits 10 shortest.coefficient) shortest.exponent

end LoopHoist.Decimal
