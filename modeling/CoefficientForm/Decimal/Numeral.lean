-- SUMMARY: Reading a decimal numeral exactly.
import CoefficientForm.Decimal.Basic

/-!
# Decimal numerals

An unsigned numeral is a run of digits with an optional point, before, inside or after it, and an
optional power of ten. The pieces read from the front of a text and hand back the rest, so that
the same pieces serve texts with stricter rules.
-/

namespace CoefficientForm.Decimal

/-- A sign in front, and whether it is a minus. -/
def readSign : List Char → Bool × List Char
  | '-' :: rest => (true, rest)
  | '+' :: rest => (false, rest)
  | rest => (false, rest)

/-- The digits in front, and the rest. -/
def readDigits (cs : List Char) : List Char × List Char :=
  (cs.takeWhile Char.isDigit, cs.dropWhile Char.isDigit)

theorem readDigits_append (cs : List Char) : (readDigits cs).1 ++ (readDigits cs).2 = cs :=
  List.takeWhile_append_dropWhile

theorem isDigit_of_mem_readDigits {cs : List Char} {c : Char} (h : c ∈ (readDigits cs).1) :
    c.isDigit = true := by
  have := List.all_takeWhile (p := Char.isDigit) (l := cs)
  exact List.all_eq_true.1 this c h

/-- The places after a point in front; none where no point stands. -/
def readPlaces : List Char → List Char × List Char
  | '.' :: rest => readDigits rest
  | rest => ([], rest)

/-- The power of ten in front, 0 where none is given. A mark without digits is refused. -/
def readPower? : List Char → Option (Int × List Char)
  | [] => some (0, [])
  | mark :: rest =>
    if mark = 'e' ∨ mark = 'E' then
      let (negative, afterSign) := readSign rest
      let (digits, afterDigits) := readDigits afterSign
      if digits = [] then none
      else
        let size : Int := Nat.ofDigitChars 10 digits 0
        some (if negative then -size else size, afterDigits)
    else some (0, mark :: rest)

/-- The decimal of the digits `whole.places` times ten to the `power`. -/
def ofDigits (negative : Bool) (whole places : List Char) (power : Int) : Decimal :=
  ⟨negative, Nat.ofDigitChars 10 (whole ++ places) 0, power - places.length⟩

/-- The decimal that a whole text denotes as a numeral with the given sign. -/
def ofUnsigned? (negative : Bool) (cs : List Char) : Option Decimal :=
  let (whole, afterWhole) := readDigits cs
  let (places, afterPlaces) := readPlaces afterWhole
  if whole = [] ∧ places = [] then none
  else
    match readPower? afterPlaces with
    | some (power, []) => some (ofDigits negative whole places power)
    | _ => none

/-- The decimal that a whole text denotes as a numeral with an optional sign. -/
def ofNumeral? (cs : List Char) : Option Decimal :=
  let (negative, rest) := readSign cs
  ofUnsigned? negative rest

end CoefficientForm.Decimal
