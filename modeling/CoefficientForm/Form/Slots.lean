-- SUMMARY: Reading coefficients off the fields that a list of slots names.
import CoefficientForm.Coefficients.Basic
import CoefficientForm.Degree
import CoefficientForm.Entry
import CoefficientForm.Field.Basic

/-!
# Slots

A slot is a place in a form and names the field that stands there. On submission the slots are
walked in order: the entry of each field is read and put at the exponent that its name carries.
The first slot for which this fails ends the walk.
-/

namespace CoefficientForm

inductive SubmissionError where
  | nothingShown
  | invalidEntry (name : FieldName) (cause : InvalidEntry)
  | noField (name : FieldName)
  | beyondDegree (name : FieldName) (degree : Degree)
deriving DecidableEq

def SubmissionError.message : SubmissionError → String
  | .nothingShown => "no coefficient fields are shown"
  | .invalidEntry name cause => s!"entry for {name.text} is invalid: {cause.message}"
  | .noField name => s!"slot {name.text} has no field"
  | .beyondDegree name degree => s!"slot {name.text} does not fit degree {degree.text}"

/-- The causes of a refused submission from the outside in. -/
def SubmissionError.causes : SubmissionError → List String
  | .invalidEntry name cause => [(invalidEntry name cause).message, cause.message]
  | e => [e.message]

namespace Coefficients

/-- Put the coefficient entered in the field of that name at its place. -/
def placeEntry (degree : Degree) (field? : FieldName → Option Field) (values : Array Binary64)
    (name : FieldName) : Except SubmissionError (Array Binary64) :=
  match field? name with
  | none => .error (.noField name)
  | some field =>
    match coefficientOf field.entry with
    | .error cause => .error (.invalidEntry name cause)
    | .ok value =>
      if h : name.exponent.toNat < values.size then .ok (values.set name.exponent.toNat value h)
      else .error (.beyondDegree name degree)

/-- The coefficients for a degree, zero where no slot says otherwise. -/
def ofSlots (degree : Degree) (slots : List FieldName) (field? : FieldName → Option Field) :
    Except SubmissionError Coefficients :=
  let zeros := Array.replicate degree.termCount (Binary64.zero false)
  (slots.foldlM (placeEntry degree field?) zeros).map Coefficients.mk

end Coefficients

end CoefficientForm
