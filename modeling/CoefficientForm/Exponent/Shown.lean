-- SUMMARY: The exponent that a label shows for any number, and the corrections that led to it.
import CoefficientForm.Exponent.TwoPlaces

/-!
# Shown exponents

Any number leads to an exponent that a label can show. It is rounded to the nearest integer, its
sign is dropped, and what exceeds 32 bits is replaced by the largest exponent there is. Nothing
is refused: each step that changes the number leaves a correction instead.
-/

namespace CoefficientForm

/-- A change made to an exponent, with the number before it and after it. -/
inductive Correction where
  | rounded (before after : Binary64)
  | flipped (before after : Binary64)
  | replaced (before : Binary64) (after : UInt32)
deriving DecidableEq

def Correction.message : Correction → String
  | .rounded before after =>
    s!"exponent '{Exponent.twoPlaces before}' was rounded to '{Exponent.twoPlaces after}'"
  | .flipped before after =>
    s!"exponent '{Exponent.twoPlaces before}' was flipped to '{Exponent.twoPlaces after}'"
  | .replaced before after =>
    s!"exponent '{Exponent.twoPlaces before}' was replaced with '{after.toNat}'"

namespace Exponent

/-- The largest exponent that a label shows. -/
def largest : UInt32 := 4294967295

/-- The nearest integer, a half going towards positive infinity. -/
def nearestInteger (x : Binary64) : Binary64 :=
  let floor := x.floor
  if (x.sub floor).less half then floor else floor.add (.ofNat 1)

/-- An exponent fit for a label, and the corrections that led to it. -/
structure Shown where
  value : UInt32
  corrections : List Correction
deriving DecidableEq

/-- For an integer without a sign, after the corrections made `before`. -/
def shownMagnitude (x : Binary64) (before : List Correction) : Shown :=
  if (Binary64.ofUInt32 largest).less x then ⟨largest, before ++ [.replaced x largest]⟩
  else ⟨x.toUInt32, before⟩

/-- For an integer, after the corrections made `before`. Negative zero has no sign to drop. -/
def shownInteger (x : Binary64) (before : List Correction) : Shown :=
  if x.less (.zero false) then shownMagnitude x.abs (before ++ [.flipped x x.abs])
  else shownMagnitude x before

/-- For any number. NaN is near no integer and is replaced by 0. -/
def shown (x : Binary64) : Shown :=
  if x.isNaN then ⟨0, [.replaced x 0]⟩
  else if x.isInfinite then ⟨largest, [.replaced x largest]⟩
  else
    let nearest := nearestInteger x
    if nearest.sameNumber x then shownInteger x []
    else shownInteger nearest [.rounded x nearest]

end Exponent

end CoefficientForm
