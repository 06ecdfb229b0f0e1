-- SUMMARY: The texts that are decimal numerals, and that exactly these are read.
import CoefficientForm.Proofs.Json.Number

/-!
# The grammar of numerals

A numeral is said by rules and not by reading: an optional sign, digits with an optional point
before, inside or behind them, and an optional power of ten. Signs and powers are those of JSON
numbers, but zeros may stand in front and no digit need stand on either side of the point. The
reader accepts these texts and no others, and says of each what the rules say.
-/

namespace CoefficientForm.Decimal

open Json (IsDigits WrittenSign WrittenPower)

/-- The texts for the places of a numeral: with their point, or nothing where there are none. -/
inductive WrittenPlaces : List Char → List Char → Prop
  | absent : WrittenPlaces [] []
  | given {digits : List Char} : WrittenPlaces digits ('.' :: digits)

/-- The texts of a decimal without its sign. There is at least one digit. -/
inductive WrittenMagnitude (negative : Bool) : Decimal → List Char → Prop
  | digits {whole places point power : List Char} {exponent : Int} : IsDigits (whole ++ places) →
      WrittenPlaces places point → WrittenPower exponent power →
      WrittenMagnitude negative (ofDigits negative whole places exponent) (whole ++ point ++ power)

/-- The numerals of a decimal. -/
inductive WrittenNumeral : Decimal → List Char → Prop
  | signed {negative : Bool} {sign cs : List Char} {d : Decimal} : WrittenSign negative sign →
      WrittenMagnitude negative d cs → WrittenNumeral d (sign ++ cs)

/-! ## Signs -/

/-- Whether a text starts with no sign. -/
def Unsigned (cs : List Char) : Prop :=
  cs.head? ≠ some '+' ∧ cs.head? ≠ some '-'

instance (cs : List Char) : Decidable (Unsigned cs) := inferInstanceAs (Decidable (_ ∧ _))

theorem readSign_of_unsigned {cs : List Char} (h : Unsigned cs) : readSign cs = (false, cs) := by
  unfold readSign
  split
  · exact absurd rfl h.2
  · exact absurd rfl h.1
  · rfl

theorem readSign_append {negative : Bool} {sign cs : List Char} (h : WrittenSign negative sign)
    (hcs : Unsigned cs) : readSign (sign ++ cs) = (negative, cs) := by
  cases h with
  | absent => exact readSign_of_unsigned hcs
  | plus => rfl
  | minus => rfl

theorem exists_sign_append (cs : List Char) :
    ∃ sign, WrittenSign (readSign cs).1 sign ∧ cs = sign ++ (readSign cs).2 := by
  unfold readSign
  split
  · exact ⟨['-'], .minus, rfl⟩
  · exact ⟨['+'], .plus, rfl⟩
  · exact ⟨[], .absent, rfl⟩

/-! ## Pieces behind the digits -/

theorem follows_nil : Json.Follows [] := by
  rintro _ ⟨⟩

theorem head_ne_of_writtenPower {exponent : Int} {power : List Char}
    (h : WrittenPower exponent power) : ∀ c ∈ power.head?, c.isDigit = false ∧ c ≠ '.' := by
  have hhead := Json.WrittenPower.head_append h follows_nil
  rwa [List.append_nil] at hhead

theorem readPower?_of_written {exponent : Int} {power : List Char}
    (h : WrittenPower exponent power) : readPower? power = some (exponent, []) := by
  have hread := Json.readPower?_written h follows_nil
  rwa [List.append_nil] at hread

theorem writtenPower_of_readPower? {exponent : Int} {power : List Char}
    (h : readPower? power = some (exponent, [])) : WrittenPower exponent power := by
  cases power with
  | nil =>
      cases h
      exact .absent
  | cons mark rest =>
      simp only [readPower?] at h
      split at h
      · rename_i hmark
        split at h
        · cases h
        · rename_i hdigits
          obtain ⟨sign, hsign, hrest⟩ := exists_sign_append rest
          have hsplit := readDigits_append (readSign rest).2
          simp only [Option.some.injEq, Prod.mk.injEq] at h
          rw [h.2, List.append_nil] at hsplit
          rw [hrest, ← hsplit, ← h.1, hsplit]
          have hgiven : IsDigits (readSign rest).2 := by
            refine ⟨?_, ?_⟩
            · rw [← hsplit]
              exact hdigits
            · rw [← hsplit]
              exact fun c => isDigit_of_mem_readDigits
          exact .given hmark hsign hgiven
      · simp at h

theorem WrittenPlaces.head_append {places point power : List Char} (h : WrittenPlaces places point)
    (hpower : ∀ c ∈ power.head?, c.isDigit = false ∧ c ≠ '.') :
    ∀ c ∈ (point ++ power).head?, c.isDigit = false := by
  cases h with
  | absent => exact fun c hc => (hpower c hc).1
  | given =>
      rintro _ ⟨⟩
      rfl

theorem readPlaces_append {places point power : List Char} (h : WrittenPlaces places point)
    (hplaces : ∀ c ∈ places, c.isDigit = true)
    (hpower : ∀ c ∈ power.head?, c.isDigit = false ∧ c ≠ '.') :
    readPlaces (point ++ power) = (places, power) := by
  cases h with
  | absent =>
      unfold readPlaces
      split
      · rename_i heq
        exact absurd rfl (hpower '.' (by rw [← List.nil_append power, heq]; rfl)).2
      · rfl
  | given => exact readDigits_append_of_head hplaces fun c hc => (hpower c hc).1

theorem exists_point_append (cs : List Char) :
    ∃ point, WrittenPlaces (readPlaces cs).1 point ∧ cs = point ++ (readPlaces cs).2 ∧
      ∀ c ∈ (readPlaces cs).1, c.isDigit = true := by
  unfold readPlaces
  split
  · rename_i rest
    refine ⟨'.' :: (readDigits rest).1, .given, ?_, fun c => isDigit_of_mem_readDigits⟩
    rw [List.cons_append, readDigits_append]
  · exact ⟨[], .absent, rfl, by simp⟩

/-! ## Magnitudes -/

variable {negative : Bool} {d : Decimal} {cs : List Char}

theorem ofUnsigned?_of_written (h : WrittenMagnitude negative d cs) :
    ofUnsigned? negative cs = some d := by
  cases h with
  | @digits whole places point power exponent hdigits hplaces hpower =>
      have hwhole : ∀ c ∈ whole, c.isDigit = true :=
        fun c hc => hdigits.isDigit c (List.mem_append_left _ hc)
      have hin : ∀ c ∈ places, c.isDigit = true :=
        fun c hc => hdigits.isDigit c (List.mem_append_right _ hc)
      have hhead := head_ne_of_writtenPower hpower
      have hsome : ¬ (whole = [] ∧ places = []) := by
        rintro ⟨rfl, rfl⟩
        exact hdigits.ne_nil rfl
      rw [ofUnsigned?, List.append_assoc]
      simp only [readDigits_append_of_head hwhole (hplaces.head_append hhead),
        readPlaces_append hplaces hin hhead, readPower?_of_written hpower, if_neg hsome]

theorem written_of_ofUnsigned? (h : ofUnsigned? negative cs = some d) :
    WrittenMagnitude negative d cs := by
  obtain ⟨point, hplaces, hafter, hin⟩ := exists_point_append (readDigits cs).2
  simp only [ofUnsigned?] at h
  split at h
  · cases h
  rename_i hsome
  split at h
  · rename_i power hpower
    cases h
    have hdigits : IsDigits ((readDigits cs).1 ++ (readPlaces (readDigits cs).2).1) := by
      refine ⟨fun hnil => hsome (List.append_eq_nil_iff.1 hnil), ?_⟩
      intro c hc
      rcases List.mem_append.1 hc with hc | hc
      · exact isDigit_of_mem_readDigits hc
      · exact hin c hc
    have hcs : cs = (readDigits cs).1 ++ point ++ (readPlaces (readDigits cs).2).2 := by
      rw [List.append_assoc, ← hafter, readDigits_append]
    have hwritten : WrittenMagnitude negative _ _ :=
      .digits hdigits hplaces (writtenPower_of_readPower? hpower)
    rwa [← hcs] at hwritten
  · cases h

/-- A magnitude starts with a digit or a point, with no sign and no word. -/
theorem WrittenMagnitude.exists_cons (h : WrittenMagnitude negative d cs) :
    ∃ c rest, cs = c :: rest ∧ (c.isDigit = true ∨ c = '.') := by
  cases h with
  | @digits whole places point power exponent hdigits hplaces hpower =>
      cases whole with
      | cons c rest => exact ⟨c, _, rfl, .inl (hdigits.isDigit c List.mem_cons_self)⟩
      | nil =>
          cases hplaces with
          | absent => exact absurd rfl hdigits.ne_nil
          | given => exact ⟨'.', _, rfl, .inr rfl⟩

theorem WrittenMagnitude.unsigned (h : WrittenMagnitude negative d cs) : Unsigned cs := by
  obtain ⟨c, rest, rfl, hdigit | rfl⟩ := h.exists_cons
  · constructor <;> rintro ⟨⟩ <;> cases hdigit
  · exact ⟨by simp, by simp⟩

/-! ## Numerals -/

/-- Whether a character is a digit, the point, a sign or the mark of a power of ten. -/
def IsNumeralChar (c : Char) : Prop :=
  c.isDigit = true ∨ c ∈ ['.', '+', '-', 'e', 'E']

theorem isNumeralChar_of_sign {sign : List Char} (h : WrittenSign negative sign) :
    ∀ c ∈ sign, IsNumeralChar c := by
  cases h <;> simp [IsNumeralChar]

theorem isNumeralChar_of_power {exponent : Int} {power : List Char}
    (h : WrittenPower exponent power) : ∀ c ∈ power, IsNumeralChar c := by
  cases h with
  | absent => simp
  | given hmark hsign hdigits =>
      intro c hc
      rcases List.mem_append.1 hc with hc | hc
      · rcases List.mem_cons.1 hc with rfl | hc
        · rcases hmark with rfl | rfl <;> simp [IsNumeralChar]
        · exact isNumeralChar_of_sign hsign c hc
      · exact .inl (hdigits.isDigit c hc)

/-- Nothing but these characters stands in a numeral. -/
theorem WrittenNumeral.isNumeralChar (h : WrittenNumeral d cs) : ∀ c ∈ cs, IsNumeralChar c := by
  obtain ⟨hsign, @⟨whole, places, point, power, exponent, hdigits, hplaces, hpower⟩⟩ := h
  have hpoint : ∀ c ∈ point, IsNumeralChar c := by
    cases hplaces with
    | absent => simp
    | given =>
        intro c hc
        rcases List.mem_cons.1 hc with rfl | hc
        · exact .inr (by simp)
        · exact .inl (hdigits.isDigit c (List.mem_append_right _ hc))
  intro c hc
  simp only [List.mem_append] at hc
  rcases hc with hc | (hc | hc) | hc
  · exact isNumeralChar_of_sign hsign c hc
  · exact .inl (hdigits.isDigit c (List.mem_append_left _ hc))
  · exact hpoint c hc
  · exact isNumeralChar_of_power hpower c hc

/-- A text is read as a numeral exactly when it is one, and then as what it says. -/
theorem ofNumeral?_eq_some_iff : ofNumeral? cs = some d ↔ WrittenNumeral d cs := by
  constructor
  · intro h
    obtain ⟨sign, hsign, hcs⟩ := exists_sign_append cs
    rw [hcs]
    exact .signed hsign (written_of_ofUnsigned? h)
  · rintro ⟨hsign, hmagnitude⟩
    rw [ofNumeral?, readSign_append hsign hmagnitude.unsigned]
    exact ofUnsigned?_of_written hmagnitude

end CoefficientForm.Decimal
