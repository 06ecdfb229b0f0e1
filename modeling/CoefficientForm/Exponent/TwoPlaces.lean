-- SUMMARY: A number shown with at most two decimal places.
import CoefficientForm.Binary64.Arithmetic
import CoefficientForm.Binary64.Text
import CoefficientForm.Text.Blank

/-!
# Two decimal places

Messages about an exponent show it with at most two places. The number is first moved to a
multiple of a hundredth in double precision, a half going away from zero; the hundredths are then
printed, without the zeros at the end, and a negative zero without its sign.
-/

namespace CoefficientForm.Exponent

def half : Binary64 := ⟨false, 0x3FE0000000000000, by decide⟩

def hundred : Binary64 := .ofNat 100

/-- The magnitude of `x` moved to a multiple of a hundredth. Where a hundred times it is too
large for a double it stays as it is. -/
def toHundredths (x : Binary64) : Binary64 :=
  let count := ((x.abs.mul hundred).add half).floor
  if count.isFinite then count.div hundred else x.abs

/-- The decimal with two places nearest to a finite number, a half going to the even digit. -/
def withTwoPlaces (x : Binary64) : Decimal :=
  ⟨x.negative, roundHalfEven (x.units * 100) Binary64.one, -2⟩

/-- A text with two places, without the zeros at its end and without a point left bare. -/
def dropZeros (cs : List Char) : List Char :=
  Text.dropTrailing (· == '.') (Text.dropTrailing (· == '0') cs)

def twoPlaces (x : Binary64) : String :=
  if x.isFinite then
    let shown := dropZeros (withTwoPlaces ((toHundredths x).copySign x)).text
    if shown = ['-', '0'] then "0" else String.ofList shown
  else x.text

end CoefficientForm.Exponent
