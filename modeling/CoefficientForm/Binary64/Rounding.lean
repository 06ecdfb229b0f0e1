-- SUMMARY: Rounding an exact quotient to the nearest double-precision number.
import CoefficientForm.Binary64.Basic

/-!
# Rounding to nearest

Numerals and arithmetic both end in one rounding of an exact quotient of natural numbers. The
nearest magnitude is found by its rank: the quotient is cut to 53 significant bits and rounded,
and because ranks run on from one binade into the next, a carry out of the last bit needs no
case of its own.
-/

namespace CoefficientForm

/-- `num / den` rounded to a natural number, a half going to the even neighbour. -/
def roundHalfEven (num den : Nat) : Nat :=
  let whole := num / den
  let twiceRest := 2 * (num % den)
  if twiceRest < den then whole
  else if den < twiceRest then whole + 1
  else whole + whole % 2

/-- A quotient without a rest is not rounded. -/
theorem roundHalfEven_mul (n : Nat) {den : Nat} (h : 0 < den) :
    roundHalfEven (n * den) den = n := by
  simp [roundHalfEven, Nat.mul_div_cancel n h, h]

namespace Binary64

/-- How many low bits of the quotient lie below the last of its 53 significant bits. -/
def excessBits (num den : Nat) : Nat :=
  Nat.log2 (num / den) - 52

/-- The rank of the magnitude nearest to `num / den` units, a half going to the even rank.
Beyond the finite magnitudes it is infinity. -/
def nearestRank (num den : Nat) : Nat :=
  let shift := excessBits num den
  min (shift * binadeSize + roundHalfEven num (den <<< shift)) infinityRank

theorem nearestRank_le (num den : Nat) : nearestRank num den ≤ infinityRank :=
  Nat.min_le_right ..

/-- The number nearest to `num / den` units, with the given sign. -/
def ofUnits (negative : Bool) (num den : Nat) : Binary64 :=
  ⟨negative, nearestRank num den, Nat.lt_of_le_of_lt (nearestRank_le num den) (by decide)⟩

/-- The number nearest to an integer count of units. A count of zero takes the sign `zeroSign`. -/
def ofScaled (zeroSign : Bool) (count : Int) : Binary64 :=
  ofUnits (if count = 0 then zeroSign else decide (count < 0)) count.natAbs 1

def ofNat (n : Nat) : Binary64 :=
  ofUnits false (n * one) 1

def ofUInt32 (n : UInt32) : Binary64 :=
  ofNat n.toNat

/-- The integral part of a magnitude, for values whose integral part has 32 bits. -/
def toUInt32 (x : Binary64) : UInt32 :=
  UInt32.ofNat (x.units / one)

end Binary64

end CoefficientForm
