-- SUMMARY: The name of a field, and the label beside it.
import CoefficientForm.Text.Natural

/-!
# Field names and labels

A field is named after the term whose coefficient it takes, `x^n`. The exponent can be read back
from the name. The label is what a reader sees beside the field, as TeX.
-/

namespace CoefficientForm

/-- The name of the field for the coefficient of `x^exponent`. -/
structure FieldName where
  exponent : UInt32
deriving DecidableEq, Inhabited

/-- A text that names no field. -/
structure MalformedName where
  text : String
deriving DecidableEq

def MalformedName.message (e : MalformedName) : String :=
  s!"malformed field id '{e.text}', expected x^<n>"

namespace FieldName

def text (name : FieldName) : String := s!"x^{name.exponent.toNat}"

def ofChars? : List Char → Option FieldName
  | 'x' :: '^' :: digits => (Text.ofNatural? digits).map FieldName.mk
  | _ => none

def ofText (s : String) : Except MalformedName FieldName :=
  match ofChars? s.toList with
  | some name => .ok name
  | none => .error ⟨s⟩

end FieldName

/-- A label shows the variable with an exponent other than 0. -/
structure Label where
  exponent : UInt32
deriving DecidableEq

/-- The first power goes without its exponent. -/
def Label.text (label : Label) : String :=
  if label.exponent = 1 then "x" else s!"x^\x7b{label.exponent.toNat}\x7d"

end CoefficientForm
