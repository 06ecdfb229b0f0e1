-- SUMMARY: Writing a JSON text.
import CoefficientForm.Json.Basic
import CoefficientForm.Json.Literal

/-!
# Writing JSON

A value is written on one line without white space. A number always has a point or a power of ten,
so that it is not taken for an integer. It has no power of ten while it has no more than 16 digits
before its point, or less than five zeros behind it where it is below one.
-/

namespace CoefficientForm.Json

-- ---------------------------------------------------------------------------
-- Numbers
-- ---------------------------------------------------------------------------

/-- The digits before the point, those behind it, and the power of ten. -/
structure NumberParts where
  whole : List Char
  places : List Char
  power : Int

/-- How a number is split. Its point falls behind the first `point` of its digits; where these
are too far apart there is one digit before the point and a power of ten. -/
def numberParts (d : Decimal) : NumberParts :=
  let digits := Nat.toDigits 10 d.coefficient
  let point := digits.length + d.exponent
  if d.coefficient = 0 then ⟨['0'], ['0'], 0⟩
  else if 0 ≤ d.exponent ∧ point ≤ 16 then
    ⟨digits ++ List.replicate d.exponent.toNat '0', ['0'], 0⟩
  else if 0 < point ∧ point ≤ 16 then ⟨digits.take point.toNat, digits.drop point.toNat, 0⟩
  else if -5 < point ∧ point ≤ 0 then ⟨['0'], List.replicate (-point).toNat '0' ++ digits, 0⟩
  else ⟨digits.take 1, digits.drop 1, point - 1⟩

def placesChars (places : List Char) : List Char :=
  if places = [] then [] else '.' :: places

def powerChars (power : Int) : List Char :=
  if power = 0 then []
  else if power < 0 then 'e' :: '-' :: Nat.toDigits 10 power.natAbs
  else 'e' :: Nat.toDigits 10 power.natAbs

def numberChars (d : Decimal) : List Char :=
  let parts := numberParts d
  (if d.negative then ['-'] else []) ++ parts.whole ++ placesChars parts.places ++
    powerChars parts.power

-- ---------------------------------------------------------------------------
-- Values
-- ---------------------------------------------------------------------------

mutual

def chars : Json → List Char
  | .null => ['n', 'u', 'l', 'l']
  | .bool true => ['t', 'r', 'u', 'e']
  | .bool false => ['f', 'a', 'l', 's', 'e']
  | .number value => numberChars value
  | .string text => literal text
  | .array items => '[' :: itemsChars items ++ [']']
  | .object members => '{' :: membersChars members ++ ['}']

/-- The items with commas between them. -/
def itemsChars : List Json → List Char
  | [] => []
  | [item] => item.chars
  | item :: rest => item.chars ++ ',' :: itemsChars rest

/-- The members with commas between them. -/
def membersChars : List (Option String × Json) → List Char
  | [] => []
  | [(name, value)] => literal name ++ ':' :: value.chars
  | (name, value) :: rest => literal name ++ ':' :: value.chars ++ ',' :: membersChars rest

end

def text (json : Json) : String :=
  String.ofList json.chars

end CoefficientForm.Json
