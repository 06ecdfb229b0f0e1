-- SUMMARY: Reading a natural number of at most 32 bits.

/-!
# Natural numbers as text

A number of 32 bits is read from a run of decimal digits of any length, zeros in front included.
-/

namespace CoefficientForm.Text

/-- The number that a run of digits denotes, if it has at most 32 bits. -/
def ofDigits? (cs : List Char) : Option UInt32 :=
  if cs ≠ [] ∧ cs.all Char.isDigit then
    let n := Nat.ofDigitChars 10 cs 0
    if n < UInt32.size then some (UInt32.ofNat n) else none
  else none

/-- The same with an optional plus in front. -/
def ofNatural? : List Char → Option UInt32
  | '+' :: cs => ofDigits? cs
  | cs => ofDigits? cs

end CoefficientForm.Text
