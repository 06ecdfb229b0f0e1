-- SUMMARY: The texts that name a field, and that exactly these are read.
import Mathlib.Data.Nat.Digits.Defs
import CoefficientForm.Proofs.Field
import CoefficientForm.Proofs.Json.Grammar

/-!
# The grammar of field names

A field has one text that is written for its name, and many that are read as it. The exponent may
have a plus and any number of zeros in front, as long as its digits make a number of 32 bits. No
other text names a field, and each of those is refused as it stands.
-/

namespace CoefficientForm

open Json (IsDigits)

/-! ## Numbers of 32 bits -/

namespace Text

variable {digits : List Char} {n : UInt32}

/-- What digits are worth by their places, a place being worth ten times the one behind it. -/
def placeValue (digits : List Char) : ℕ :=
  Nat.ofDigits 10 (digits.reverse.map fun c => c.toNat - '0'.toNat)

theorem ofDigitChars_eq_placeValue (digits : List Char) :
    Nat.ofDigitChars 10 digits 0 = placeValue digits := by
  -- The digits are read from the front, and their places are counted from the end.
  induction digits using List.reverseRecOn with
  | nil => rfl
  | append_singleton front last ih =>
      rw [Nat.ofDigitChars_append, ih, Nat.ofDigitChars_cons, Nat.ofDigitChars_nil, placeValue,
        placeValue, List.reverse_append, List.reverse_singleton, List.singleton_append,
        List.map_cons, Nat.ofDigits_cons, Nat.add_comm]

theorem placeValue_zeros_append (zeros : ℕ) (digits : List Char) :
    placeValue (List.replicate zeros '0' ++ digits) = placeValue digits := by
  rw [← ofDigitChars_eq_placeValue, ← ofDigitChars_eq_placeValue, Nat.ofDigitChars_append,
    Nat.ofDigitChars_replicate_zero, Nat.mul_zero]

theorem placeValue_toDigits (n : ℕ) : placeValue (Nat.toDigits 10 n) = n := by
  rw [← ofDigitChars_eq_placeValue, Nat.ofDigitChars_ten_toDigits]

theorem ofDigits?_eq_some_iff :
    ofDigits? digits = some n ↔ IsDigits digits ∧ placeValue digits = n.toNat := by
  rw [← ofDigitChars_eq_placeValue]
  constructor
  · intro h
    simp only [ofDigits?] at h
    split at h
    · rename_i hdigits
      split at h
      · rename_i hlt
        cases h
        exact ⟨⟨hdigits.1, List.all_eq_true.1 hdigits.2⟩, (UInt32.toNat_ofNat_of_lt' hlt).symm⟩
      · cases h
    · cases h
  · rintro ⟨hdigits, hvalue⟩
    simp only [ofDigits?, if_pos (And.intro hdigits.ne_nil (List.all_eq_true.2 hdigits.isDigit)),
      hvalue, if_pos n.toNat_lt, UInt32.ofNat_toNat]

theorem not_isDigits_plus {rest : List Char} : ¬ IsDigits ('+' :: rest) := by
  intro h
  have hplus := h.isDigit '+' List.mem_cons_self
  cases hplus

theorem ofNatural?_of_isDigits (h : IsDigits digits) : ofNatural? digits = ofDigits? digits := by
  unfold ofNatural?
  split
  · exact absurd h not_isDigits_plus
  · rfl

end Text

/-! ## Names -/

namespace FieldName

variable {name : FieldName} {digits cs : List Char}

/-- The texts that name a field: `x^` with the digits of its exponent, perhaps with zeros in front,
and perhaps with a plus before them. -/
inductive Written (name : FieldName) : List Char → Prop
  | unsigned {digits : List Char} : IsDigits digits →
      Text.placeValue digits = name.exponent.toNat → Written name ('x' :: '^' :: digits)
  | signed {digits : List Char} : IsDigits digits →
      Text.placeValue digits = name.exponent.toNat → Written name ('x' :: '^' :: '+' :: digits)

theorem Written.ofChars? (h : Written name cs) : ofChars? cs = some name := by
  cases h with
  | unsigned hdigits hvalue =>
      rw [FieldName.ofChars?, Text.ofNatural?_of_isDigits hdigits,
        Text.ofDigits?_eq_some_iff.2 ⟨hdigits, hvalue⟩, Option.map_some]
  | signed hdigits hvalue =>
      rw [FieldName.ofChars?, Text.ofNatural?, Text.ofDigits?_eq_some_iff.2 ⟨hdigits, hvalue⟩,
        Option.map_some]

theorem written_of_ofChars? (h : ofChars? cs = some name) : Written name cs := by
  unfold FieldName.ofChars? at h
  split at h
  · obtain ⟨exponent, hexponent, rfl⟩ := Option.map_eq_some_iff.1 h
    unfold Text.ofNatural? at hexponent
    split at hexponent
    · obtain ⟨hdigits, hvalue⟩ := Text.ofDigits?_eq_some_iff.1 hexponent
      exact .signed hdigits hvalue
    · obtain ⟨hdigits, hvalue⟩ := Text.ofDigits?_eq_some_iff.1 hexponent
      exact .unsigned hdigits hvalue
  · cases h

theorem ofChars?_eq_some_iff : ofChars? cs = some name ↔ Written name cs :=
  ⟨written_of_ofChars?, Written.ofChars?⟩

theorem ofText_eq_ok_iff {s : String} : ofText s = .ok name ↔ Written name s.toList := by
  rw [← ofChars?_eq_some_iff, ofText]
  cases FieldName.ofChars? s.toList <;> simp

theorem ofText_eq_error_iff {s : String} {e : MalformedName} :
    ofText s = .error e ↔ (∀ name, ¬ Written name s.toList) ∧ e = ⟨s⟩ := by
  simp only [← ofChars?_eq_some_iff, ofText]
  cases FieldName.ofChars? s.toList <;> simp [eq_comm]

theorem text_injective : Function.Injective text := by
  intro a b h
  have hread := ofText_text a
  rw [h, ofText_text b] at hread
  exact (Except.ok.inj hread).symm

/-- Zeros in front of the exponent name the same field. -/
theorem written_zeros (zeros : ℕ) (name : FieldName) :
    Written name
      ('x' :: '^' :: (List.replicate zeros '0' ++ Nat.toDigits 10 name.exponent.toNat)) := by
  refine .unsigned ⟨List.append_ne_nil_of_right_ne_nil _ Nat.toDigits_ne_nil, ?_⟩ ?_
  · intro c hc
    rcases List.mem_append.1 hc with hzero | hdigit
    · rw [List.eq_of_mem_replicate hzero]
      rfl
    · exact Text.isDigit_of_mem_toDigits hdigit
  · rw [Text.placeValue_zeros_append, Text.placeValue_toDigits]

/-! ## Texts that name nothing -/

/-- A name has no other characters than digits and those of `x^+`. -/
theorem Written.mem (h : Written name cs) {c : Char} (hc : c ∈ cs) :
    c.isDigit = true ∨ c ∈ ['x', '^', '+'] := by
  cases h with
  | unsigned hdigits _ =>
      simp only [List.mem_cons] at hc ⊢
      rcases hc with rfl | rfl | hdigit
      · simp
      · simp
      · exact .inl (hdigits.isDigit c hdigit)
  | signed hdigits _ =>
      simp only [List.mem_cons] at hc ⊢
      rcases hc with rfl | rfl | rfl | hdigit
      · simp
      · simp
      · simp
      · exact .inl (hdigits.isDigit c hdigit)

theorem not_written_of_foreign_char {c : Char} (hc : c ∈ cs) (hdigit : c.isDigit = false)
    (hsign : c ∉ ['x', '^', '+']) (name : FieldName) : ¬ Written name cs := by
  intro h
  rcases h.mem hc with hmem | hmem
  · rw [hdigit] at hmem
    cases hmem
  · exact hsign hmem

/-- Behind a plus comes a digit, and neither the end nor another sign. -/
theorem not_written_of_plus {rest : List Char} (hrest : ∀ c ∈ rest.head?, c.isDigit = false)
    (name : FieldName) : ¬ Written name ('x' :: '^' :: '+' :: rest) := by
  intro h
  cases h with
  | unsigned hdigits _ => exact Text.not_isDigits_plus hdigits
  | signed hdigits _ =>
      obtain ⟨c, more, rfl⟩ := List.exists_cons_of_ne_nil hdigits.ne_nil
      have hdigit := hdigits.isDigit c List.mem_cons_self
      rw [hrest c rfl] at hdigit
      cases hdigit

/-- The exponents end with those of 32 bits, however the digits of a greater number are written. -/
theorem not_written_of_overflow (hdigits : IsDigits digits)
    (hvalue : 2 ^ 32 ≤ Text.placeValue digits) (name : FieldName) :
    ¬ Written name ('x' :: '^' :: digits) ∧ ¬ Written name ('x' :: '^' :: '+' :: digits) := by
  have hne : Text.placeValue digits ≠ name.exponent.toNat :=
    (Nat.lt_of_lt_of_le name.exponent.toNat_lt hvalue).ne'
  refine ⟨?_, ?_⟩ <;> intro h
  · cases h with
    | unsigned _ hexponent => exact hne hexponent
    | signed _ _ => exact Text.not_isDigits_plus hdigits
  · cases h with
    | unsigned hplus _ => exact Text.not_isDigits_plus hplus
    | signed _ hexponent => exact hne hexponent

/-! ## All texts -/

/-- The text of a name is read as that name, and no two names share one. A text is read as a name
exactly when it is `x^`, perhaps a plus, and digits that are worth the exponent, with zeros in front
or without. Every other text is refused as it stands, so one with any other character, with no
digit behind the plus, or with digits that are worth more than 32 bits. -/
theorem names_read_and_refused :
    (∀ name : FieldName, ofText name.text = .ok name) ∧
    Function.Injective text ∧
    (∀ (s : String) (name : FieldName), ofText s = .ok name ↔ Written name s.toList) ∧
    (∀ (s : String) (e : MalformedName),
      ofText s = .error e ↔ (∀ name, ¬ Written name s.toList) ∧ e = ⟨s⟩) ∧
    (∀ (zeros : ℕ) (name : FieldName),
      Written name
        ('x' :: '^' :: (List.replicate zeros '0' ++ Nat.toDigits 10 name.exponent.toNat))) ∧
    (∀ (s : String) (c : Char), c ∈ s.toList → c.isDigit = false → c ∉ ['x', '^', '+'] →
      ofText s = .error ⟨s⟩) ∧
    (∀ (s : String) (rest : List Char), s.toList = 'x' :: '^' :: '+' :: rest →
      (∀ c ∈ rest.head?, c.isDigit = false) → ofText s = .error ⟨s⟩) ∧
    ∀ (s : String) (digits : List Char),
      s.toList = 'x' :: '^' :: digits ∨ s.toList = 'x' :: '^' :: '+' :: digits →
      IsDigits digits → 2 ^ 32 ≤ Text.placeValue digits → ofText s = .error ⟨s⟩ := by
  have hrefused {s : String} (h : ∀ name, ¬ Written name s.toList) : ofText s = .error ⟨s⟩ :=
    ofText_eq_error_iff.2 ⟨h, rfl⟩
  refine ⟨ofText_text, text_injective, fun _ _ => ofText_eq_ok_iff, fun _ _ => ofText_eq_error_iff,
    written_zeros, ?_, ?_, ?_⟩
  · intro s c hc hdigit hsign
    exact hrefused (not_written_of_foreign_char hc hdigit hsign)
  · intro s rest hs hrest
    apply hrefused
    rw [hs]
    exact not_written_of_plus hrest
  · rintro s digits (hs | hs) hdigits hvalue
    · apply hrefused
      rw [hs]
      exact fun name => (not_written_of_overflow hdigits hvalue name).1
    · apply hrefused
      rw [hs]
      exact fun name => (not_written_of_overflow hdigits hvalue name).2

/-- The greatest exponent with a plus and zeros, and the number after it. Further a sign on zero,
two signs, a full-width digit and a capital letter. -/
theorem names_of_zeros_and_overflow :
    ofText "x^+0004294967295" = .ok ⟨4294967295⟩ ∧
      ofText "x^00004294967296" = .error ⟨"x^00004294967296"⟩ ∧
      ofText "x^-0" = .error ⟨"x^-0"⟩ ∧ ofText "x^++1" = .error ⟨"x^++1"⟩ ∧
      ofText "x^１" = .error ⟨"x^１"⟩ ∧ ofText "X^1" = .error ⟨"X^1"⟩ := by
  obtain ⟨-, -, hread, -, -, hforeign, hplus, hoverflow⟩ := names_read_and_refused
  have hdigits : IsDigits "0004294967295".toList := ⟨by simp, by simp⟩
  have hlarge : IsDigits "00004294967296".toList := ⟨by simp, by simp⟩
  refine ⟨(hread _ _).2 (.signed hdigits (by decide +kernel)), ?_, ?_, ?_, ?_, ?_⟩
  · exact hoverflow _ _ (.inl rfl) hlarge (by decide +kernel)
  · exact hforeign _ '-' (by decide +kernel) (by decide +kernel) (by decide +kernel)
  · exact hplus _ "+1".toList rfl (by simp)
  · exact hforeign _ '１' (by decide +kernel) (by decide +kernel) (by decide +kernel)
  · exact hforeign _ 'X' (by decide +kernel) (by decide +kernel) (by decide +kernel)

end FieldName

end CoefficientForm
