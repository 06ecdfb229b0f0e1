-- SUMMARY: Reading and writing JSON strings.

/-!
# JSON strings

A string literal is read into code points first, because an escape of four hexadecimal digits may
give one half of a surrogate pair. The halves are joined afterwards. A text is written with as few
escapes as the format allows.
-/

namespace CoefficientForm.Json

-- ---------------------------------------------------------------------------
-- Reading
-- ---------------------------------------------------------------------------

def hexDigit? (c : Char) : Option Nat :=
  if '0' ≤ c ∧ c ≤ '9' then some (c.toNat - 48)
  else if 'a' ≤ c ∧ c ≤ 'f' then some (c.toNat - 87)
  else if 'A' ≤ c ∧ c ≤ 'F' then some (c.toNat - 55)
  else none

/-- The code point, or half of a pair, that four hexadecimal digits give. -/
def hexUnit? (a b c d : Char) : Option Nat := do
  return (((← hexDigit? a) * 16 + (← hexDigit? b)) * 16 + (← hexDigit? c)) * 16 + (← hexDigit? d)

/-- The character that a backslash and one letter stand for. -/
def escaped? : Char → Option Char
  | '"' => some '"'
  | '\\' => some '\\'
  | '/' => some '/'
  | 'b' => some '\x08'
  | 'f' => some '\x0c'
  | 'n' => some '\n'
  | 'r' => some '\r'
  | 't' => some '\t'
  | _ => none

/-- The units of a literal whose opening quote has been read, and what follows its closing
quote. -/
def readUnits : List Char → Option (List Nat × List Char)
  | [] => none
  | '"' :: rest => some ([], rest)
  | '\\' :: 'u' :: a :: b :: c :: d :: rest =>
    match hexUnit? a b c d, readUnits rest with
    | some unit, some (units, after) => some (unit :: units, after)
    | _, _ => none
  | '\\' :: letter :: rest =>
    match escaped? letter, readUnits rest with
    | some c, some (units, after) => some (c.toNat :: units, after)
    | _, _ => none
  | c :: rest =>
    if c.toNat < 0x20 then none
    else
      match readUnits rest with
      | some (units, after) => some (c.toNat :: units, after)
      | none => none

def isHighHalf (unit : Nat) : Bool := 0xD800 ≤ unit && unit ≤ 0xDBFF

def isLowHalf (unit : Nat) : Bool := 0xDC00 ≤ unit && unit ≤ 0xDFFF

/-- The code point of a surrogate pair. -/
def joinHalves (high low : Nat) : Nat :=
  0x10000 + (high - 0xD800) * 0x400 + (low - 0xDC00)

/-- The characters that units denote. A half without its other half denotes none. -/
def joinUnits? : List Nat → Option (List Char)
  | [] => some []
  | [unit] =>
    if isHighHalf unit || isLowHalf unit then none else some [Char.ofNat unit]
  | unit :: next :: rest =>
    if isHighHalf unit then
      if isLowHalf next then (joinUnits? rest).map (Char.ofNat (joinHalves unit next) :: ·)
      else none
    else if isLowHalf unit then none
    else (joinUnits? (next :: rest)).map (Char.ofNat unit :: ·)

/-- The text of a literal whose opening quote has been read, and what follows its closing
quote. -/
def readLiteral (cs : List Char) : Option (Option String × List Char) :=
  (readUnits cs).map fun (units, after) => ((joinUnits? units).map String.ofList, after)

-- ---------------------------------------------------------------------------
-- Writing
-- ---------------------------------------------------------------------------

/-- A character as it stands in a literal. Only the quote, the backslash and the controls are
escaped. -/
def literalChar (c : Char) : List Char :=
  match c with
  | '"' => ['\\', '"']
  | '\\' => ['\\', '\\']
  | '\x08' => ['\\', 'b']
  | '\x0c' => ['\\', 'f']
  | '\n' => ['\\', 'n']
  | '\r' => ['\\', 'r']
  | '\t' => ['\\', 't']
  | c =>
    if c.toNat < 0x20 then
      ['\\', 'u', '0', '0', Nat.digitChar (c.toNat / 16), Nat.digitChar (c.toNat % 16)]
    else [c]

/-- A literal of a text. A literal that denotes no text is one half of a surrogate pair. -/
def literal : Option String → List Char
  | some text => '"' :: text.toList.flatMap literalChar ++ ['"']
  | none => ['"', '\\', 'u', 'd', '8', '0', '0', '"']

end CoefficientForm.Json
