-- SUMMARY: Coefficients as a JSON array.
import CoefficientForm.Coefficients.Basic
import CoefficientForm.Json.Reader
import CoefficientForm.Json.Printer

/-!
# Coefficients as JSON

Coefficients are an array of numbers with the shortest digits, the constant term first. What is not
finite has no number in JSON and is written as null, which is not read back.
-/

namespace CoefficientForm.Coefficients

def valueToJson (value : Binary64) : Json :=
  if value.isFinite then .number (Decimal.shortestEven value) else .null

/-- The double nearest to a number, unless that is infinite. -/
def valueOfJson? : Json → Option Binary64
  | .number decimal =>
    let value := decimal.toBinary64
    if value.isFinite then some value else none
  | _ => none

def toJson (coefficients : Coefficients) : Json :=
  .array (coefficients.values.toList.map valueToJson)

def ofJson? : Json → Option Coefficients
  | .array items => (items.mapM valueOfJson?).map fun values => ⟨values.toArray⟩
  | _ => none

def ofJsonText? (s : String) : Option Coefficients :=
  (Json.ofText? s).bind ofJson?

end CoefficientForm.Coefficients
