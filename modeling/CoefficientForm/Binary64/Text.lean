-- SUMMARY: Reading and writing double-precision numbers as text.
import CoefficientForm.Decimal.Numeral
import CoefficientForm.Decimal.Shortest

/-!
# Doubles as text

A number is written with its shortest digits and never with an exponent. It is read from any
decimal numeral, rounded to nearest, or from one of the words for the values that have no digits.
-/

namespace CoefficientForm.Binary64

def text (x : Binary64) : String :=
  if x.isNaN then "NaN"
  else if x.isInfinite then if x.negative then "-inf" else "inf"
  else String.ofList (Decimal.shortest x).text

/-- The value that a word stands for, in any mix of capitals. -/
def ofWord? (negative : Bool) (cs : List Char) : Option Binary64 :=
  let word := cs.map Char.toLower
  if word = ['i', 'n', 'f'] ∨ word = ['i', 'n', 'f', 'i', 'n', 'i', 't', 'y'] then
    some (infinity negative)
  else if word = ['n', 'a', 'n'] then some (nan negative)
  else none

/-- The number that a whole text denotes. -/
def ofChars? (cs : List Char) : Option Binary64 :=
  let (negative, rest) := Decimal.readSign cs
  match ofWord? negative rest with
  | some x => some x
  | none => (Decimal.ofUnsigned? negative rest).map Decimal.toBinary64

def ofText? (s : String) : Option Binary64 :=
  ofChars? s.toList

end CoefficientForm.Binary64
