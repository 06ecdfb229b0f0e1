-- SUMMARY: JSON values.
import CoefficientForm.Decimal.Basic

/-!
# JSON values

Numbers are kept as decimals, unrounded, and members in the order in which they are written,
repeated names included. A string may be well formed and yet denote no
text, when it escapes one half of a surrogate pair without the other; then its text is `none`.
-/

namespace CoefficientForm

inductive Json where
  | null
  | bool (value : Bool)
  | number (value : Decimal)
  | string (text : Option String)
  | array (items : List Json)
  | object (members : List (Option String × Json))

namespace Json

def ofString (s : String) : Json := .string (some s)

/-- White space between the tokens of JSON. -/
def isBlank (c : Char) : Bool :=
  c == ' ' || c == '\n' || c == '\r' || c == '\t'

end Json

end CoefficientForm
