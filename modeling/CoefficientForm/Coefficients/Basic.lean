-- SUMMARY: The coefficients of a polynomial and the views of them.
import Std.Data.TreeMap
import CoefficientForm.Binary64.Text

/-!
# Coefficients

The coefficients of one polynomial, the constant term first. Whoever factors it may take them in
either order, as a table by exponent, or as the query of a web address.
-/

namespace CoefficientForm

/-- At index `e` stands the coefficient of `x^e`. -/
structure Coefficients where
  values : Array Binary64
deriving DecidableEq

/-- Why the factoring service does not take a polynomial. -/
inductive Unfactorable where
  | lowDegree (degree : UInt32)
  | zeroEnd (exponent : UInt32)
deriving DecidableEq

def Unfactorable.message : Unfactorable → String
  | .lowDegree degree => s!"degree {degree.toNat} is below 2"
  | .zeroEnd exponent => s!"x^{exponent.toNat} must not be 0"

namespace Coefficients

/-- The highest exponent, none when there are no coefficients. -/
def degree? (coefficients : Coefficients) : Option UInt32 :=
  if coefficients.values.size = 0 then none
  else some (UInt32.ofNat (coefficients.values.size - 1))

/-- The coefficient of `x^exponent`. -/
def get? (coefficients : Coefficients) (exponent : UInt32) : Option Binary64 :=
  coefficients.values[exponent.toNat]?

/-- Each exponent with its coefficient, the constant term first. -/
def ascending (coefficients : Coefficients) : List (UInt32 × Binary64) :=
  coefficients.values.toList.zipIdx.map fun (value, exponent) => (UInt32.ofNat exponent, value)

/-- Each exponent with its coefficient, the leading term first. -/
def descending (coefficients : Coefficients) : List (UInt32 × Binary64) :=
  coefficients.ascending.reverse

/-- The coefficients in a table by exponent. -/
def byExponent (coefficients : Coefficients) : Std.TreeMap UInt32 Binary64 :=
  coefficients.ascending.foldl (fun table (exponent, value) => table.insert exponent value) ∅

/-- What the factoring service asks for by name: the degree, then each coefficient. The `^` of a
name `x^e` is percent-encoded, so that the query can follow an address as it is. -/
def parameters (coefficients : Coefficients) : List (String × String) :=
  ("degree", toString (coefficients.degree?.getD 0).toNat) ::
    coefficients.values.toList.zipIdx.map fun (value, exponent) =>
      (s!"x%5E{exponent}", value.text)

def query (coefficients : Coefficients) : String :=
  "&".intercalate (coefficients.parameters.map fun (name, value) => s!"{name}={value}")

/-- Whether the coefficient of `x^exponent` is there and is zero, of either sign. -/
def isZeroAt (coefficients : Coefficients) (exponent : UInt32) : Bool :=
  (coefficients.get? exponent).any (·.sameNumber (.zero false))

/-- The factoring service takes degrees from 2 with neither end zero. The constant term is looked
at first. -/
def factorable (coefficients : Coefficients) : Except Unfactorable Unit :=
  let degree := coefficients.degree?.getD 0
  if degree < 2 then .error (.lowDegree degree)
  else if coefficients.isZeroAt 0 then .error (.zeroEnd 0)
  else if coefficients.isZeroAt degree then .error (.zeroEnd degree)
  else .ok ()

end Coefficients

end CoefficientForm
