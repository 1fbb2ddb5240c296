/-
This file reads decimal numerals as numbers.

A numeral with neither a point nor an exponent is a whole number, if a machine
word holds it; zero with a sign is no whole number. Every numeral can also be
read as a floating-point number: its digits are taken in from the left as long
as an unsigned word holds them, and the result is scaled by a power of ten in
one rounded step. For up to fifteen digits and small powers of ten that is the
nearest floating-point number; a longer numeral may come out as a neighbour.
-/

namespace StagedQuery.Decimal

/-- A numeral: its sign, the digits before and after the point, and the power of ten it is scaled
by. -/
structure Numeral where
  negative : Bool
  whole : List Nat
  fraction : Option (List Nat)
  exponent : Option Int
  deriving DecidableEq, Inhabited

namespace Numeral

/-! ### Whole numbers -/

/-- The whole number that a numeral is, between `-2 ^ 63` and `2 ^ 64 - 1`. -/
def whole? (numeral : Numeral) : Option Int :=
  match numeral.fraction, numeral.exponent with
  | none, none =>
    let magnitude : Nat := numeral.whole.foldl (fun number digit => 10 * number + digit) 0
    if numeral.negative then
      if 0 < magnitude ∧ magnitude ≤ UInt64.size / 2 then some (-magnitude) else none
    else if magnitude < UInt64.size then some magnitude
    else none
  | _, _ => none

/-! ### Floating-point numbers -/

/-- Takes in digits as long as an unsigned word holds the number; the other digits are left. -/
def absorb (number : Nat) : List Nat → Nat × List Nat
  | [] => (number, [])
  | digit :: rest =>
    if 10 * number + digit < UInt64.size then absorb (10 * number + digit) rest
    else (number, digit :: rest)

/-- The floating-point number nearest to a power of ten. -/
def powerOfTen (exponent : Nat) : Float := Float.ofScientific 1 false exponent

/-- Divides by a power of ten, in as few steps as there are powers of ten to divide by. -/
def scaleDown (number : Float) (places : Nat) : Float :=
  if places ≤ 308 then number / powerOfTen places
  else if number == 0 then number
  else scaleDown (number / powerOfTen 308) (places - 308)
termination_by places

/-- The floating-point number that a numeral is read as. A digit before the point that no longer
fits counts as a zero, and one after the point does not count. -/
def toFloat (numeral : Numeral) : Float :=
  let fraction := numeral.fraction.getD []
  let (front, left) := absorb 0 numeral.whole
  let (significand, unread) := absorb front fraction
  let exponent : Int :=
    numeral.exponent.getD 0 + left.length - (fraction.length - unread.length : Nat)
  let number := (UInt64.ofNat significand).toFloat
  let magnitude :=
    if number == 0 then number
    else if 0 ≤ exponent then number * powerOfTen exponent.toNat
    else scaleDown number exponent.natAbs
  if numeral.negative then -magnitude else magnitude

end Numeral

end StagedQuery.Decimal
