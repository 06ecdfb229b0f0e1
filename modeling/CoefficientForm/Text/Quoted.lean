-- SUMMARY: A text in quotes on one line, with every character made visible.
import CoefficientForm.Text.Unmarked

/-!
# Quoted text

A quoted text stands between double quotes on one line. The quote and the backslash get a
backslash in front, the usual controls their letter, and every other unmarked character is given
by its code point.
-/

namespace CoefficientForm.Text

/-- A character as it stands in a quoted text. -/
def quotedChar (c : Char) : List Char :=
  match c with
  | '"' => ['\\', '"']
  | '\\' => ['\\', '\\']
  | '\n' => ['\\', 'n']
  | '\r' => ['\\', 'r']
  | '\t' => ['\\', 't']
  | '\x00' => ['\\', '0']
  | c =>
    if isUnmarked c then ['\\', 'u', '{'] ++ Nat.toDigits 16 c.toNat ++ ['}']
    else [c]

def quoted (s : String) : String :=
  String.ofList ('"' :: s.toList.flatMap quotedChar ++ ['"'])

end CoefficientForm.Text
