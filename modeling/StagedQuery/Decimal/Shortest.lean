/-
This file finds the shortest decimal that stands for a binary floating-point
number.

A finite number is `m · 2 ^ q`. Every real in the interval around it that ends
halfway to its two neighbours rounds to it; the ends belong to the interval
when `m` is even. Among decimals with one digit, then two, and so on, only the
two neighbours of the number on that decimal grid need a look: the first grid
on which one of them lies in the interval gives the digits, and of two hits the
nearer one is taken, or the even one when both are equally near. All arithmetic
is exact.
-/

namespace StagedQuery.Decimal

/-- The number `digits · 10 ^ exponent`. -/
structure Scaled where
  digits : Nat
  exponent : Int
  deriving DecidableEq, Inhabited

/-- A positive real, `value / denominator`, and the reals that round to it: those between
`lower / denominator` and `upper / denominator`. -/
structure Rounding where
  lower : Nat
  value : Nat
  upper : Nat
  denominator : Nat
  closed : Bool

namespace Rounding

/-- The rounding interval of `significand · 2 ^ exponent`. A number at the foot of its binade is
twice as far from the next greater number as from the next smaller one. -/
def ofBinary (significand : Nat) (exponent : Int) (footOfBinade : Bool) : Rounding :=
  let scale := Nat.pow 2 (exponent - 2).toNat
  { lower := (4 * significand - if footOfBinade then 1 else 2) * scale
    value := 4 * significand * scale
    upper := (4 * significand + 2) * scale
    denominator := Nat.pow 2 (2 - exponent).toNat
    closed := significand % 2 == 0 }

/-- How many decimal digits a number has; zero has none. -/
def digitCount (number : Nat) : Nat :=
  if number = 0 then 0 else (Nat.toDigits 10 number).length

/-- The exponent of the leading decimal digit of the value. -/
def leadingExponent (rounding : Rounding) : Int :=
  if rounding.denominator ≤ rounding.value then
    digitCount (rounding.value / rounding.denominator) - 1
  else -digitCount ((rounding.denominator - 1) / rounding.value)

/-- The grid point `digits · 10 ^ exponent` nearest to the value, if one of the value's two
neighbours on the grid rounds to it. -/
def nearest? (rounding : Rounding) (exponent : Int) : Option Scaled :=
  let scale := Nat.pow 10 (-exponent).toNat
  let unit := Nat.pow 10 exponent.toNat * rounding.denominator
  let value := rounding.value * scale
  let lower := rounding.lower * scale
  let upper := rounding.upper * scale
  let inside (point : Nat) : Bool :=
    if rounding.closed then lower ≤ point * unit && point * unit ≤ upper
    else lower < point * unit && point * unit < upper
  let below := value / unit
  let above := below + 1
  let downward := value - below * unit
  let upward := above * unit - value
  match inside below, inside above with
  | false, false => none
  | true, false => some ⟨below, exponent⟩
  | false, true => some ⟨above, exponent⟩
  | true, true =>
    if downward < upward || (downward == upward && below % 2 == 0) then some ⟨below, exponent⟩
    else some ⟨above, exponent⟩

/-- The shortest decimal in the interval. Seventeen digits always suffice. -/
def shortest (rounding : Rounding) : Scaled :=
  let leading := rounding.leadingExponent
  ((List.range 17).findSome? fun (further : Nat) => rounding.nearest? (leading - further)).getD
    ⟨rounding.value / rounding.denominator, 0⟩

end Rounding

/-- A floating-point number by kind. -/
inductive Parts where
  | notANumber
  | infinite (negative : Bool)
  | zero (negative : Bool)
  | finite (negative : Bool) (rounding : Rounding)

/-- Takes a number apart. The smallest exponent belongs to the numbers without a leading bit. -/
def Parts.ofFloat (number : Float) : Parts :=
  let bits := number.toBits.toNat
  let leadingBit := Nat.pow 2 52
  let negative : Bool := Nat.pow 2 63 ≤ bits
  let field : Nat := bits / leadingBit % Nat.pow 2 11
  let fraction := bits % leadingBit
  if field = 2047 then
    if fraction = 0 then .infinite negative else .notANumber
  else if field = 0 then
    if fraction = 0 then .zero negative
    else .finite negative (.ofBinary fraction (-1074) false)
  else
    .finite negative
      (.ofBinary (leadingBit + fraction) ((field : Int) - 1075) (fraction == 0 && 1 < field))

end StagedQuery.Decimal
