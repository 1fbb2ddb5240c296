/-
This file writes floating-point numbers as texts.

A layout decides where positional notation ends; the digits are always the
fewest that read back as the number. Positional texts have a point with at least
one digit on both sides; in scientific notation the exponent always has a sign.
-/

import StagedQuery.Decimal.Shortest

namespace StagedQuery.Decimal

/-- Positional notation is used where the point stands between these places, counted from in front
of the first digit. -/
structure Layout where
  leastPoint : Int
  greatestPoint : Int

namespace Layout

/-- Digits without zeros at the end, and the exponent that makes up for them. -/
def trimmed (number : Scaled) : List Char × Int :=
  let digits := Nat.toDigits 10 number.digits
  let kept := (digits.reverse.dropWhile (· == '0')).reverse
  (kept, number.exponent + (digits.length - kept.length : Nat))

/-- An exponent with its sign. -/
def signedExponent (exponent : Int) : List Char :=
  (if 0 ≤ exponent then '+' else '-') :: Nat.toDigits 10 exponent.natAbs

/-- The text of a positive number. -/
def positive (layout : Layout) (number : Scaled) : String :=
  let (digits, exponent) := trimmed number
  let zeros (count : Int) : List Char := List.replicate count.toNat '0'
  let point := digits.length + exponent
  String.ofList <|
    if layout.leastPoint ≤ point ∧ point ≤ layout.greatestPoint then
      if 0 ≤ exponent then digits ++ zeros exponent ++ ['.', '0']
      else if 0 < point then digits.take point.toNat ++ '.' :: digits.drop point.toNat
      else ['0', '.'] ++ zeros (-point) ++ digits
    else
      digits.take 1 ++ (if digits.length = 1 then [] else '.' :: digits.drop 1) ++
        'e' :: signedExponent (point - 1)

/-- The text of a number. -/
def text (layout : Layout) (number : Float) : String :=
  let signed (negative : Bool) (text : String) : String := if negative then "-" ++ text else text
  match Parts.ofFloat number with
  | .notANumber => "NaN"
  | .infinite negative => signed negative "inf"
  | .zero negative => signed negative "0.0"
  | .finite negative rounding => signed negative (layout.positive rounding.shortest)

end Layout

end StagedQuery.Decimal
