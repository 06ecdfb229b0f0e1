-- SUMMARY: The positional text of a decimal is a numeral that says the same value.
import Mathlib.Data.List.TakeWhile
import CoefficientForm.Decimal.Numeral
import CoefficientForm.Proofs.Decimal.Nearest
import CoefficientForm.Proofs.Text.Natural

/-!
# Positional texts

A positional text has digits on both sides of its point or no point at all, and never a power of
ten. Reading it gives a decimal of the same sign and value, so that it denotes the same double.
-/

namespace CoefficientForm.Decimal

/-! ## Numerals without a power of ten -/

theorem readDigits_append_of_head {digits rest : List Char}
    (hdigits : ∀ c ∈ digits, c.isDigit = true) (hrest : ∀ c ∈ rest.head?, c.isDigit = false) :
    readDigits (digits ++ rest) = (digits, rest) := by
  have hnone : rest.takeWhile Char.isDigit = [] ∧ rest.dropWhile Char.isDigit = rest := by
    cases rest with
    | nil => exact ⟨rfl, rfl⟩
    | cons c tail =>
        have hc : ¬ c.isDigit = true := by
          rw [hrest c rfl]
          exact Bool.false_ne_true
        exact ⟨List.takeWhile_cons_of_neg hc, List.dropWhile_cons_of_neg hc⟩
  rw [readDigits, List.takeWhile_append_of_pos hdigits, List.dropWhile_append_of_pos hdigits,
    hnone.1, hnone.2, List.append_nil]

theorem readDigits_of_digits {digits : List Char} (hdigits : ∀ c ∈ digits, c.isDigit = true) :
    readDigits digits = (digits, []) := by
  have h : readDigits (digits ++ []) = (digits, []) := readDigits_append_of_head hdigits (by simp)
  rwa [List.append_nil] at h

theorem readDigits_digits_point {digits : List Char} (hdigits : ∀ c ∈ digits, c.isDigit = true)
    (rest : List Char) : readDigits (digits ++ '.' :: rest) = (digits, '.' :: rest) := by
  apply readDigits_append_of_head hdigits
  rintro _ ⟨⟩
  rfl

theorem ofUnsigned?_digits {digits : List Char} (hne : digits ≠ [])
    (hdigits : ∀ c ∈ digits, c.isDigit = true) (negative : Bool) :
    ofUnsigned? negative digits = some (ofDigits negative digits [] 0) := by
  unfold ofUnsigned?
  simp only [readDigits_of_digits hdigits, readPlaces]
  rw [if_neg fun h => hne h.1]
  rfl

theorem ofUnsigned?_digits_point {whole places : List Char} (hne : whole ≠ [])
    (hwhole : ∀ c ∈ whole, c.isDigit = true) (hplaces : ∀ c ∈ places, c.isDigit = true)
    (negative : Bool) :
    ofUnsigned? negative (whole ++ '.' :: places) = some (ofDigits negative whole places 0) := by
  unfold ofUnsigned?
  simp only [readDigits_digits_point hwhole, readPlaces, readDigits_of_digits hplaces]
  rw [if_neg fun h => hne h.1]
  rfl

/-! ## Digits with zeros in front -/

theorem isDigit_of_mem_paddedDigits {width n : Nat} {c : Char} (h : c ∈ paddedDigits width n) :
    c.isDigit = true := by
  rcases List.mem_append.1 h with hzero | hdigit
  · rw [List.eq_of_mem_replicate hzero]
    decide
  · exact Text.isDigit_of_mem_toDigits hdigit

theorem length_paddedDigits {width n : Nat} (hwidth : 0 < width) (h : n < 10 ^ width) :
    (paddedDigits width n).length = width := by
  have hlength : (Nat.toDigits 10 n).length ≤ width :=
    (Nat.length_toDigits_le_iff (by decide) hwidth).2 h
  rw [paddedDigits, List.length_append, List.length_replicate, Nat.sub_add_cancel hlength]

theorem ofDigitChars_paddedDigits (width n : Nat) :
    Nat.ofDigitChars 10 (paddedDigits width n) 0 = n := by
  rw [paddedDigits, Nat.ofDigitChars_append, Nat.ofDigitChars_replicate_zero, Nat.mul_zero,
    Nat.ofDigitChars_ten_toDigits]

/-! ## The magnitude -/

/-- What the positional text of `d` says. A power of ten that is not negative is written out. -/
def positional (d : Decimal) : Decimal :=
  if 0 ≤ d.exponent then ⟨d.negative, d.coefficient * tenTo d.exponent.toNat, 0⟩ else d

theorem toBinary64_positional (d : Decimal) : d.positional.toBinary64 = d.toBinary64 := by
  unfold positional
  split
  · rename_i hexponent
    refine toBinary64_congr (d := ⟨d.negative, _, 0⟩) rfl ?_
    rw [ratio, ratio, if_pos hexponent, if_pos (Int.le_refl 0)]
    simp only [tenTo_eq, Int.toNat_zero, pow_zero, Nat.mul_one]
  · rfl

/-- The digits before the point and those behind it are the coefficient again. -/
theorem ofDigits_places {d : Decimal} (hexponent : ¬ 0 ≤ d.exponent) :
    ofDigits d.negative (Nat.toDigits 10 (d.coefficient / tenTo (-d.exponent).toNat))
      (paddedDigits (-d.exponent).toNat (d.coefficient % tenTo (-d.exponent).toNat)) 0 = d := by
  have hlength : (paddedDigits (-d.exponent).toNat
      (d.coefficient % tenTo (-d.exponent).toNat)).length = (-d.exponent).toNat := by
    apply length_paddedDigits (by omega)
    exact Nat.mod_lt _ (tenTo_pos _)
  have hcoefficient := Nat.div_add_mod d.coefficient (tenTo (-d.exponent).toNat)
  rw [ofDigits, Nat.ofDigitChars_append, Nat.ofDigitChars_ten_toDigits,
    Nat.ofDigitChars_eq_ofDigitChars_zero, hlength, ofDigitChars_paddedDigits, ← tenTo_eq,
    hcoefficient, Int.toNat_of_nonneg (by omega)]
  simp only [Int.zero_sub, Int.neg_neg]

theorem ofUnsigned?_magnitudeText (d : Decimal) :
    ofUnsigned? d.negative d.magnitudeText = some d.positional := by
  unfold magnitudeText positional
  split
  · rw [ofUnsigned?_digits Nat.toDigits_ne_nil fun _ => Text.isDigit_of_mem_toDigits, ofDigits,
      List.append_nil, Nat.ofDigitChars_ten_toDigits]
    rfl
  · rename_i hexponent
    rw [ofUnsigned?_digits_point Nat.toDigits_ne_nil (fun _ => Text.isDigit_of_mem_toDigits)
      fun _ => isDigit_of_mem_paddedDigits, ofDigits_places hexponent]

/-! ## Characters and signs -/

theorem isDigit_or_point_of_mem_magnitudeText {d : Decimal} {c : Char}
    (h : c ∈ d.magnitudeText) : c.isDigit = true ∨ c = '.' := by
  unfold magnitudeText at h
  split at h
  · exact Or.inl (Text.isDigit_of_mem_toDigits h)
  · rcases List.mem_append.1 h with hwhole | hplaces
    · exact Or.inl (Text.isDigit_of_mem_toDigits hwhole)
    · rcases List.mem_cons.1 hplaces with hpoint | hplace
      · exact Or.inr hpoint
      · exact Or.inl (isDigit_of_mem_paddedDigits hplace)

theorem mem_text {d : Decimal} {c : Char} (h : c ∈ d.text) :
    c.isDigit = true ∨ c = '-' ∨ c = '.' := by
  unfold text at h
  split at h
  · rcases List.mem_cons.1 h with hminus | hmagnitude
    · exact Or.inr (Or.inl hminus)
    · exact (isDigit_or_point_of_mem_magnitudeText hmagnitude).imp_right Or.inr
  · exact (isDigit_or_point_of_mem_magnitudeText h).imp_right Or.inr

/-- A magnitude starts with a digit, with no sign and no word. -/
theorem exists_digit_cons_magnitudeText (d : Decimal) :
    ∃ digit rest, d.magnitudeText = digit :: rest ∧ digit.isDigit = true := by
  have hdigits (n : Nat) : ∃ digit rest, Nat.toDigits 10 n = digit :: rest ∧
      digit.isDigit = true := by
    obtain ⟨digit, rest, hcons⟩ := List.exists_cons_of_ne_nil (@Nat.toDigits_ne_nil n 10)
    refine ⟨digit, rest, hcons, Text.isDigit_of_mem_toDigits (n := n) ?_⟩
    rw [hcons]
    exact List.mem_cons_self
  unfold magnitudeText
  split
  · exact hdigits _
  · obtain ⟨digit, rest, hcons, hdigit⟩ := hdigits (d.coefficient / tenTo (-d.exponent).toNat)
    dsimp only
    rw [hcons]
    exact ⟨digit, _, rfl, hdigit⟩

theorem readSign_digit_cons {digit : Char} (hdigit : digit.isDigit = true) (rest : List Char) :
    readSign (digit :: rest) = (false, digit :: rest) := by
  unfold readSign
  split
  · rename_i hminus
    rw [(List.cons.inj hminus).1] at hdigit
    exact absurd hdigit (by decide)
  · rename_i hplus
    rw [(List.cons.inj hplus).1] at hdigit
    exact absurd hdigit (by decide)
  · rfl

theorem readSign_text (d : Decimal) : readSign d.text = (d.negative, d.magnitudeText) := by
  unfold text
  split
  · rename_i hnegative
    rw [hnegative]
    rfl
  · rename_i hpositive
    obtain ⟨digit, rest, hcons, hdigit⟩ := exists_digit_cons_magnitudeText d
    rw [hcons, readSign_digit_cons hdigit, Bool.eq_false_iff.2 hpositive]

end CoefficientForm.Decimal
