-- SUMMARY: Reading a JSON text.
import CoefficientForm.Decimal.Numeral
import CoefficientForm.Json.Basic
import CoefficientForm.Json.Literal
import CoefficientForm.Text.Blank

/-!
# Reading JSON

A text is read as one value with nothing but white space around it. Each reader takes its piece
from the front of the text and hands back the rest. Every second step consumes a character, so
twice the length of a text bounds the steps that it can need.
-/

namespace CoefficientForm.Json

def skipBlanks (cs : List Char) : List Char :=
  cs.dropWhile isBlank

/-- A minus in front, and whether there is one. -/
def readMinus : List Char → Bool × List Char
  | '-' :: rest => (true, rest)
  | rest => (false, rest)

/-- Whether digits can stand before the point: at least one, and no zero before another digit. -/
def isWholePart : List Char → Bool
  | [] => false
  | ['0'] => true
  | '0' :: _ => false
  | _ => true

/-- How many significant digits of a number count one by one. -/
def digitLimit : Nat := 768

/-- The number `whole.places` times ten to the `power`. Its significant digits begin with the first
that is not zero and take in the whole part to its end; zeros that end the places are none of them.
Behind the first `digitLimit` of them a single digit 1 stands for all the rest. The nearest double
is the same, unless the rest are zeros and what stands before them is halfway between two doubles:
then the 1 breaks the tie. -/
def numberOf (negative : Bool) (whole places : List Char) (power : Int) : Decimal :=
  let keptPlaces := Text.dropTrailing (· == '0') places
  let digits := (whole ++ keptPlaces).dropWhile (· == '0')
  if digits.length ≤ digitLimit then .ofDigits negative whole places power
  else
    let rest := digits.length - digitLimit
    let exponent := power - keptPlaces.length + rest - 1
    .ofDigits negative (digits.take digitLimit ++ ['1']) [] exponent

/-- The number in front. A point needs a digit on either side. -/
def readNumber (cs : List Char) : Option (Decimal × List Char) :=
  let (negative, afterMinus) := readMinus cs
  let (whole, afterWhole) := Decimal.readDigits afterMinus
  let (places, afterPlaces) := Decimal.readPlaces afterWhole
  if !isWholePart whole || (places = [] && afterWhole.head? == some '.') then none
  else
    (Decimal.readPower? afterPlaces).map fun (power, after) =>
      (numberOf negative whole places power, after)

mutual

/-- The value in front, behind white space. -/
def readValue : Nat → List Char → Option (Json × List Char)
  | 0, _ => none
  | steps + 1, cs =>
    match skipBlanks cs with
    | '"' :: rest => (readLiteral rest).map fun (text, after) => (.string text, after)
    | '[' :: rest =>
      match skipBlanks rest with
      | ']' :: after => some (.array [], after)
      | rest => (readItems steps rest).map fun (items, after) => (.array items, after)
    | '{' :: rest =>
      match skipBlanks rest with
      | '}' :: after => some (.object [], after)
      | rest => (readMembers steps rest).map fun (members, after) => (.object members, after)
    | 'n' :: 'u' :: 'l' :: 'l' :: after => some (.null, after)
    | 't' :: 'r' :: 'u' :: 'e' :: after => some (.bool true, after)
    | 'f' :: 'a' :: 'l' :: 's' :: 'e' :: after => some (.bool false, after)
    | rest => (readNumber rest).map fun (value, after) => (.number value, after)

/-- The items up to the closing bracket, at least one. -/
def readItems : Nat → List Char → Option (List Json × List Char)
  | 0, _ => none
  | steps + 1, cs =>
    match readValue steps cs with
    | none => none
    | some (item, afterItem) =>
      match skipBlanks afterItem with
      | ',' :: rest => (readItems steps rest).map fun (items, after) => (item :: items, after)
      | ']' :: after => some ([item], after)
      | _ => none

/-- The members up to the closing brace, at least one. -/
def readMembers : Nat → List Char → Option (List (Option String × Json) × List Char)
  | 0, _ => none
  | steps + 1, cs =>
    match skipBlanks cs with
    | '"' :: rest =>
      match readLiteral rest with
      | none => none
      | some (name, afterName) =>
        match skipBlanks afterName with
        | ':' :: rest =>
          match readValue steps rest with
          | none => none
          | some (value, afterValue) =>
            match skipBlanks afterValue with
            | ',' :: rest =>
              (readMembers steps rest).map fun (members, after) =>
                ((name, value) :: members, after)
            | '}' :: after => some ([(name, value)], after)
            | _ => none
        | _ => none
    | _ => none

end

/-- The value that a whole text denotes. -/
def ofChars? (cs : List Char) : Option Json :=
  match readValue (2 * cs.length + 1) cs with
  | some (value, rest) => if rest.all isBlank then some value else none
  | none => none

def ofText? (s : String) : Option Json :=
  ofChars? s.toList

end CoefficientForm.Json
