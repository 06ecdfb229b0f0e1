-- SUMMARY: Exact decimal numbers, their nearest double and their positional text.
import CoefficientForm.Binary64.Rounding

/-!
# Decimal numbers

A `Decimal` is an integer times a power of ten, with a sign of its own so that -0 differs from 0.
It is what a numeral says exactly, before any rounding.
-/

namespace CoefficientForm

/-- The number `± coefficient * 10 ^ exponent`. -/
structure Decimal where
  negative : Bool
  coefficient : Nat
  exponent : Int
deriving DecidableEq

namespace Decimal

/-- A power of ten. -/
def tenTo (n : Nat) : Nat := Nat.pow 10 n

/-- The magnitude as a quotient of natural numbers. -/
def ratio (d : Decimal) : Nat × Nat :=
  if 0 ≤ d.exponent then (d.coefficient * tenTo d.exponent.toNat, 1)
  else (d.coefficient, tenTo (-d.exponent).toNat)

/-- The nearest double. Outside some 400 decimal orders of magnitude the answer is infinity or
zero whatever the digits are, and no power of ten is computed. -/
def toBinary64 (d : Decimal) : Binary64 :=
  if d.coefficient = 0 then .zero d.negative
  else if 400 < d.exponent then .infinity d.negative
  else if d.exponent < -(400 + (Nat.log2 d.coefficient : Int)) then .zero d.negative
  else .ofUnits d.negative (d.ratio.1 * Binary64.one) d.ratio.2

-- ---------------------------------------------------------------------------
-- Positional text
-- ---------------------------------------------------------------------------

/-- The decimal digits of `n`, with zeros in front up to `width` of them. -/
def paddedDigits (width n : Nat) : List Char :=
  let digits := Nat.toDigits 10 n
  List.replicate (width - digits.length) '0' ++ digits

/-- The magnitude without an exponent: as many places as the power of ten asks for, none when it
is not negative. -/
def magnitudeText (d : Decimal) : List Char :=
  if 0 ≤ d.exponent then Nat.toDigits 10 (d.coefficient * tenTo d.exponent.toNat)
  else
    let places := (-d.exponent).toNat
    Nat.toDigits 10 (d.coefficient / tenTo places) ++
      '.' :: paddedDigits places (d.coefficient % tenTo places)

def text (d : Decimal) : List Char :=
  if d.negative then '-' :: d.magnitudeText else d.magnitudeText

end Decimal

end CoefficientForm
