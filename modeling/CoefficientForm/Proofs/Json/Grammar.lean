-- SUMMARY: The texts that denote a JSON value.
import CoefficientForm.Json.Reader

/-!
# The grammar of JSON

Which texts denote a value, said by rules and not by reading. A value has many texts: white space
may stand around every token, a character of a string may be escaped or stand for itself, and a
number may have a power of ten. Each piece comes with the character that it starts with, by which
the reader tells the pieces apart.
-/

namespace CoefficientForm.Json

/-- White space, or nothing. -/
def AllBlank (cs : List Char) : Prop :=
  ∀ c ∈ cs, isBlank c = true

/-! ## Literals -/

/-- The texts of one unit of a literal: the character itself, a backslash with a letter, or a
backslash with four hexadecimal digits. -/
inductive WrittenUnit : Nat → List Char → Prop
  | plain {c : Char} : 0x20 ≤ c.toNat → c ≠ '"' → c ≠ '\\' → WrittenUnit c.toNat [c]
  | escaped {letter c : Char} : escaped? letter = some c → WrittenUnit c.toNat ['\\', letter]
  | hexadecimal {a b c d : Char} {unit : Nat} : hexUnit? a b c d = some unit →
      WrittenUnit unit ['\\', 'u', a, b, c, d]

inductive WrittenUnits : List Nat → List Char → Prop
  | nil : WrittenUnits [] []
  | cons {unit : Nat} {units : List Nat} {cs rest : List Char} : WrittenUnit unit cs →
      WrittenUnits units rest → WrittenUnits (unit :: units) (cs ++ rest)

/-- The literals of a text, quotes included. A literal in which half of a surrogate pair stands
alone is one of no text. -/
inductive WrittenLiteral : Option String → List Char → Prop
  | quoted {units : List Nat} {content : List Char} : WrittenUnits units content →
      WrittenLiteral ((joinUnits? units).map String.ofList) ('"' :: content ++ ['"'])

/-! ## Numbers -/

/-- A run of decimal digits, at least one. -/
structure IsDigits (cs : List Char) : Prop where
  ne_nil : cs ≠ []
  isDigit : ∀ c ∈ cs, c.isDigit = true

/-- The texts for the places of a number: with their point, or nothing where there are none. -/
inductive WrittenPlaces : List Char → List Char → Prop
  | absent : WrittenPlaces [] []
  | given {digits : List Char} : IsDigits digits → WrittenPlaces digits ('.' :: digits)

/-- The signs of a power of ten, and whether it is a minus. -/
inductive WrittenSign : Bool → List Char → Prop
  | absent : WrittenSign false []
  | plus : WrittenSign false ['+']
  | minus : WrittenSign true ['-']

inductive WrittenPower : Int → List Char → Prop
  | absent : WrittenPower 0 []
  | given {mark : Char} {negative : Bool} {sign digits : List Char} : mark = 'e' ∨ mark = 'E' →
      WrittenSign negative sign → IsDigits digits →
      WrittenPower
        (if negative then -(Nat.ofDigitChars 10 digits 0 : Int) else Nat.ofDigitChars 10 digits 0)
        (mark :: sign ++ digits)

inductive WrittenNumber : Decimal → List Char → Prop
  | positional {negative : Bool} {whole places point power : List Char} {exponent : Int} :
      isWholePart whole = true → (∀ c ∈ whole, c.isDigit = true) → WrittenPlaces places point →
      WrittenPower exponent power →
      WrittenNumber (numberOf negative whole places exponent)
        ((if negative then ['-'] else []) ++ whole ++ point ++ power)

/-! ## Values -/

mutual

/-- The texts of a value, from its first token to its last. -/
inductive Written : Json → List Char → Prop
  | null : Written .null ['n', 'u', 'l', 'l']
  | boolTrue : Written (.bool true) ['t', 'r', 'u', 'e']
  | boolFalse : Written (.bool false) ['f', 'a', 'l', 's', 'e']
  | number {value : Decimal} {cs : List Char} : WrittenNumber value cs → Written (.number value) cs
  | string {text : Option String} {cs : List Char} : WrittenLiteral text cs →
      Written (.string text) cs
  | emptyArray {blanks : List Char} : AllBlank blanks → Written (.array []) ('[' :: blanks ++ [']'])
  | array {items : List Json} {cs : List Char} : WrittenItems items cs →
      Written (.array items) ('[' :: cs ++ [']'])
  | emptyObject {blanks : List Char} : AllBlank blanks →
      Written (.object []) ('{' :: blanks ++ ['}'])
  | object {members : List (Option String × Json)} {cs : List Char} : WrittenMembers members cs →
      Written (.object members) ('{' :: cs ++ ['}'])

/-- The texts of items, with the white space around each and the commas between them. -/
inductive WrittenItems : List Json → List Char → Prop
  | last {item : Json} {before cs after : List Char} : AllBlank before → Written item cs →
      AllBlank after → WrittenItems [item] (before ++ cs ++ after)
  | cons {item : Json} {items : List Json} {before cs after next : List Char} : AllBlank before →
      Written item cs → AllBlank after → WrittenItems items next →
      WrittenItems (item :: items) (before ++ cs ++ after ++ ',' :: next)

/-- The texts of members, with the white space around each token and the commas between them. -/
inductive WrittenMembers : List (Option String × Json) → List Char → Prop
  | last {name : Option String} {value : Json}
      {before nameText afterName beforeValue cs after : List Char} : AllBlank before →
      WrittenLiteral name nameText → AllBlank afterName → AllBlank beforeValue →
      Written value cs → AllBlank after →
      WrittenMembers [(name, value)]
        (before ++ nameText ++ afterName ++ ':' :: beforeValue ++ cs ++ after)
  | cons {name : Option String} {value : Json} {members : List (Option String × Json)}
      {before nameText afterName beforeValue cs after next : List Char} : AllBlank before →
      WrittenLiteral name nameText → AllBlank afterName → AllBlank beforeValue →
      Written value cs → AllBlank after → WrittenMembers members next →
      WrittenMembers ((name, value) :: members)
        (before ++ nameText ++ afterName ++ ':' :: beforeValue ++ cs ++ after ++ ',' :: next)

end

/-- Whether a text can stand behind a value: it is empty, or starts with white space, a comma or a
closing bracket. -/
def Follows (rest : List Char) : Prop :=
  ∀ c ∈ rest.head?, isBlank c = true ∨ c = ',' ∨ c = ']' ∨ c = '}'

/-! ## First characters -/

theorem IsDigits.exists_cons {digits : List Char} (h : IsDigits digits) :
    ∃ digit tail, digits = digit :: tail ∧ digit.isDigit = true := by
  obtain ⟨digit, tail, rfl⟩ := List.exists_cons_of_ne_nil h.ne_nil
  exact ⟨digit, tail, rfl, h.isDigit digit List.mem_cons_self⟩

theorem isDigits_of_isWholePart {whole : List Char} (hwhole : isWholePart whole = true)
    (hdigits : ∀ c ∈ whole, c.isDigit = true) : IsDigits whole := by
  refine ⟨?_, hdigits⟩
  rintro rfl
  cases hwhole

/-- Whether a number can start with a character. -/
def StartsNumber (c : Char) : Prop :=
  c = '-' ∨ c.isDigit = true

theorem StartsNumber.ne {c other : Char} (h : StartsNumber c) (hother : ¬ StartsNumber other) :
    c ≠ other := by
  rintro rfl
  exact hother h

theorem StartsNumber.isBlank_eq_false {c : Char} (h : StartsNumber c) : isBlank c = false := by
  have hspace : c ≠ ' ' := h.ne (by simp [StartsNumber])
  have hnewline : c ≠ '\n' := h.ne (by simp [StartsNumber])
  have hreturn : c ≠ '\r' := h.ne (by simp [StartsNumber])
  have htab : c ≠ '\t' := h.ne (by simp [StartsNumber])
  simp [isBlank, hspace, hnewline, hreturn, htab]

theorem WrittenNumber.exists_cons {value : Decimal} {cs : List Char} (h : WrittenNumber value cs) :
    ∃ c tail, cs = c :: tail ∧ StartsNumber c := by
  cases h with
  | @positional negative whole places point power exponent hwhole hdigits _ _ =>
      obtain ⟨digit, tail, rfl, hdigit⟩ := (isDigits_of_isWholePart hwhole hdigits).exists_cons
      cases negative with
      | true => exact ⟨'-', _, rfl, .inl rfl⟩
      | false => exact ⟨digit, _, rfl, .inr hdigit⟩

theorem WrittenLiteral.exists_cons {text : Option String} {cs : List Char}
    (h : WrittenLiteral text cs) : ∃ tail, cs = '"' :: tail := by
  cases h with
  | quoted _ => exact ⟨_, rfl⟩

/-- No value starts with white space or with the bracket that closes an array. -/
theorem Written.exists_cons {json : Json} {cs : List Char} (h : Written json cs) :
    ∃ c tail, cs = c :: tail ∧ isBlank c = false ∧ c ≠ ']' := by
  cases h with
  | number hnumber =>
      obtain ⟨c, tail, rfl, hc⟩ := hnumber.exists_cons
      exact ⟨c, tail, rfl, hc.isBlank_eq_false, hc.ne (by simp [StartsNumber])⟩
  | string hliteral =>
      obtain ⟨tail, rfl⟩ := hliteral.exists_cons
      exact ⟨'"', tail, rfl, rfl, by decide⟩
  | _ => exact ⟨_, _, rfl, rfl, by decide⟩

theorem WrittenItems.exists_cons {items : List Json} {cs : List Char} (h : WrittenItems items cs) :
    ∃ blanks c tail, cs = blanks ++ c :: tail ∧ AllBlank blanks ∧ isBlank c = false ∧ c ≠ ']' := by
  cases h with
  | last hbefore hitem _ | cons hbefore hitem _ _ =>
      obtain ⟨c, tail, rfl, hc⟩ := hitem.exists_cons
      exact ⟨_, c, _, by simp only [List.append_assoc, List.cons_append]; rfl, hbefore, hc⟩

theorem WrittenMembers.exists_cons {members : List (Option String × Json)} {cs : List Char}
    (h : WrittenMembers members cs) :
    ∃ blanks tail, cs = blanks ++ '"' :: tail ∧ AllBlank blanks := by
  cases h with
  | last hbefore hname | cons hbefore hname =>
      obtain ⟨tail, rfl⟩ := hname.exists_cons
      exact ⟨_, _, by simp only [List.append_assoc, List.cons_append]; rfl, hbefore⟩

/-! ## What follows a value -/

theorem Follows.head_cases {c : Char} {tail : List Char} (h : Follows (c :: tail)) :
    c = ' ' ∨ c = '\n' ∨ c = '\r' ∨ c = '\t' ∨ c = ',' ∨ c = ']' ∨ c = '}' := by
  have hc := h c rfl
  simp only [isBlank, Bool.or_eq_true, beq_iff_eq, or_assoc] at hc
  exact hc

theorem follows_cons {c : Char} (h : c = ',' ∨ c = ']' ∨ c = '}') (rest : List Char) :
    Follows (c :: rest) := by
  rintro _ ⟨⟩
  exact .inr h

theorem AllBlank.follows_append {blanks rest : List Char} (h : AllBlank blanks)
    (hrest : Follows rest) : Follows (blanks ++ rest) := by
  cases blanks with
  | nil => exact hrest
  | cons c tail =>
      rintro _ ⟨⟩
      exact .inl (h c List.mem_cons_self)

theorem AllBlank.follows {blanks : List Char} (h : AllBlank blanks) : Follows blanks := by
  have hnil : Follows (blanks ++ []) := h.follows_append (by rintro _ ⟨⟩)
  rwa [List.append_nil] at hnil

end CoefficientForm.Json
