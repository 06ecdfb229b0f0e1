-- SUMMARY: Correctly rounded arithmetic on double-precision numbers.
import CoefficientForm.Binary64.Rounding

/-!
# Arithmetic

Each operation takes the exact result in units and rounds it once. What has no value (such as
infinity less infinity) is the quiet NaN.
-/

namespace CoefficientForm.Binary64

def neg (x : Binary64) : Binary64 := { x with negative := !x.negative }

def abs (x : Binary64) : Binary64 := { x with negative := false }

/-- The magnitude of `x` with the sign of `y`. -/
def copySign (x y : Binary64) : Binary64 := { x with negative := y.negative }

/-- A sum of zero is positive unless both terms are negative. -/
def add (x y : Binary64) : Binary64 :=
  if x.isNaN || y.isNaN then nan false
  else if x.isInfinite then
    if y.isInfinite && x.negative != y.negative then nan false else x
  else if y.isInfinite then y
  else ofScaled (x.negative && y.negative) (x.scaled + y.scaled)

def sub (x y : Binary64) : Binary64 := x.add y.neg

def mul (x y : Binary64) : Binary64 :=
  let negative := x.negative != y.negative
  if x.isNaN || y.isNaN then nan false
  else if x.isInfinite || y.isInfinite then
    if x.rank = 0 ∨ y.rank = 0 then nan false else infinity negative
  else ofUnits negative (x.units * y.units) one

def div (x y : Binary64) : Binary64 :=
  let negative := x.negative != y.negative
  if x.isNaN || y.isNaN then nan false
  else if x.isInfinite then if y.isInfinite then nan false else infinity negative
  else if y.isInfinite then zero negative
  else if y.rank = 0 then if x.rank = 0 then nan false else infinity negative
  else ofUnits negative (x.units * one) y.units

/-- The largest integer not above `x`. -/
def floor (x : Binary64) : Binary64 :=
  if x.isFinite then ofScaled x.negative (x.scaled / one * one) else x

end CoefficientForm.Binary64
