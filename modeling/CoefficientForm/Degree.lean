-- SUMMARY: The degree that a user asks for, and why it may be refused.
import CoefficientForm.Binary64.Text
import CoefficientForm.Text.Blank

/-!
# Degrees

The degree box takes an integer within the bounds, in any notation. A refusal says what is wrong
with what was typed, and it is settled in a fixed order: nothing there, no number, infinite, no
integer, too small, too large.
-/

namespace CoefficientForm

/-- A degree that has passed the check. -/
structure Degree where
  value : UInt32
deriving DecidableEq, Inhabited

/-- The degrees from `min` to `max` are accepted. There are none when `min` exceeds `max`. -/
structure DegreeBounds where
  min : UInt32
  max : UInt32
deriving DecidableEq

inductive DegreeRefusal where
  | blank
  | noNumber (typed : String)
  | fractional (value : Binary64)
  | tooSmall (value : Binary64) (min : UInt32)
  | outOfRange (value : Binary64)
deriving DecidableEq

def DegreeRefusal.message : DegreeRefusal → String
  | .blank => "no degree was entered"
  | .noNumber typed => s!"degree '{typed}' is not a number"
  | .fractional value => s!"degree {value.text} is not an integer"
  | .tooSmall value min => s!"degree {value.text} is below the minimum of {min.toNat}"
  | .outOfRange value => s!"degree {value.text} is out of range"

namespace Degree

/-- Check a number against the bounds. Infinity is out of range on either side. -/
def ofValue (bounds : DegreeBounds) (value : Binary64) : Except DegreeRefusal Degree :=
  if value.isNaN then .error (.noNumber value.text)
  else if value.isInfinite then .error (.outOfRange value)
  else if !value.isIntegral then .error (.fractional value)
  else if value.less (.ofUInt32 bounds.min) then .error (.tooSmall value bounds.min)
  else if (Binary64.ofUInt32 bounds.max).less value then .error (.outOfRange value)
  else .ok ⟨value.toUInt32⟩

/-- Check what was typed, without the blanks around it. -/
def ofText (bounds : DegreeBounds) (input : String) : Except DegreeRefusal Degree :=
  let typed := Text.trimmed input
  if typed = "" then .error .blank
  else
    match Binary64.ofText? typed with
    | none => .error (.noNumber typed)
    | some value => if value.isNaN then .error (.noNumber typed) else ofValue bounds value

/-- One more than the degree, because a polynomial also has a constant term. -/
def termCount (degree : Degree) : Nat := degree.value.toNat + 1

/-- The exponents from the degree down to 0. -/
def exponents (degree : Degree) : List UInt32 :=
  (List.range degree.termCount).reverse.map UInt32.ofNat

@[simp] theorem length_exponents (degree : Degree) :
    degree.exponents.length = degree.termCount := by
  simp [exponents]

def text (degree : Degree) : String := toString degree.value.toNat

end Degree

end CoefficientForm
