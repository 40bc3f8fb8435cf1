import Calculator.Number.Magnitude

/-!
# Decimals

A decimal is a natural coefficient times a power of ten.

* `Decimal.nearest?` rounds it to a magnitude;
* `Decimal.plain` writes it without an exponent, `Decimal.scientific` with one digit before the point and an exponent
  after `e`.
-/

namespace Calculator

/-- The number `coefficient * 10 ^ exponent`. -/
structure Decimal where
  coefficient : Nat
  exponent : Int
  deriving DecidableEq, Repr

namespace Decimal

/-- The magnitude nearest to the decimal, unless it is too large. -/
def nearest? (d : Decimal) : Option Magnitude :=
  Magnitude.nearest? (d.coefficient * Nat.pow 10 d.exponent.toNat) (Nat.pow 10 (-d.exponent).toNat)

/-- The digits of the coefficient, most significant first. -/
def digits (d : Decimal) : List Char :=
  Nat.toDigits 10 d.coefficient

/-- The exponent of ten that the first digit stands for. -/
def leadingExponent (d : Decimal) : Int :=
  d.exponent + d.digits.length - 1

/-- All digits in their places: a digit at least before the point, and no point when no digit follows it. -/
def plain (d : Decimal) : List Char :=
  let places := (-d.exponent).toNat
  let digits := (d.digits ++ List.replicate d.exponent.toNat '0').leftpad (places + 1) '0'
  if places = 0 then digits
  else digits.take (digits.length - places) ++ '.' :: digits.drop (digits.length - places)

/-- The first digit, the others after a point if there are any, and the exponent of the first digit. -/
def scientific (d : Decimal) : List Char :=
  let fraction := d.digits.drop 1
  d.digits.take 1 ++ (if fraction.isEmpty then [] else '.' :: fraction) ++ 'e' :: (toString d.leadingExponent).toList

/-- Plain digits with at least one place after the point, for numbers from `10 ^ (-4)` up to below `10 ^ 16` and for
zero; an exponent for all others. -/
def detailed (d : Decimal) : List Char :=
  if d.coefficient ≠ 0 ∧ (d.leadingExponent < -4 ∨ 16 ≤ d.leadingExponent) then d.scientific
  else if 0 ≤ d.exponent then d.plain ++ ['.', '0']
  else d.plain

end Decimal

end Calculator
