-- SUMMARY: A number with no more significant digits than are read one by one is read exactly.
import CoefficientForm.Proofs.Decimal.Digits
import CoefficientForm.Proofs.Json.Number

/-!
# Digits of JSON numbers

Of a number with very many digits only the first are read one by one. What is written for a double
never has as many, so its digits are all read, and denote the same double.
-/

namespace CoefficientForm.Json

open Decimal

/-- The significant digits of `whole.places`, as they are counted against the limit. -/
def significantDigits (whole places : List Char) : List Char :=
  (whole ++ Text.dropTrailing (· == '0') places).dropWhile (· == '0')

theorem numberOf_of_length_le {whole places : List Char}
    (h : (significantDigits whole places).length ≤ digitLimit) (negative : Bool) (power : Int) :
    numberOf negative whole places power = .ofDigits negative whole places power :=
  if_pos h

/-- The digits are few when those before the point are, and all together make a number of few digits
with zeros behind them. -/
theorem length_significantDigits_le {whole places : List Char} {limit : Nat}
    (hwhole : ∀ c ∈ whole, c.isDigit = true) (hplaces : ∀ c ∈ places, c.isDigit = true)
    (hlength : whole.length ≤ limit)
    (hdigits : HasDigits limit (Nat.ofDigitChars 10 (whole ++ places) 0)) :
    (significantDigits whole places).length ≤ limit := by
  rw [significantDigits]
  by_cases hkept : Text.dropTrailing (· == '0') places = []
  · rw [hkept, List.append_nil]
    exact (List.length_dropWhile_le _ _).trans hlength
  · have hall : ∀ c ∈ whole ++ Text.dropTrailing (· == '0') places, c.isDigit = true := by
      intro c hc
      rcases List.mem_append.1 hc with hc | hc
      · exact hwhole c hc
      · exact hplaces c ((List.rdropWhile_prefix (· == '0') places).subset hc)
    apply length_le_of_ofDigitChars_lt
    · intro c hc
      exact hall c ((List.dropWhile_suffix _).subset hc)
    · intro c hc
      have hhead := List.head?_dropWhile_not (· == '0')
        (whole ++ Text.dropTrailing (· == '0') places)
      rw [Option.mem_def.1 hc] at hhead
      simpa using hhead
    obtain ⟨zeros, hzeros⟩ := exists_ofDigitChars_dropTrailing whole places
    rw [ofDigitChars_dropWhile_zero]
    rw [hzeros] at hdigits
    apply hdigits.lt_of_not_ten_dvd
    have hne := List.append_ne_nil_of_right_ne_nil whole hkept
    have hlast : ¬ ((Text.dropTrailing (· == '0') places).getLast hkept == '0') = true :=
      List.rdropWhile_last_not (· == '0') places hkept
    apply not_ten_dvd_ofDigitChars hne (hall _ (List.getLast_mem hne))
    rw [List.getLast_append_of_ne_nil _ hkept]
    simpa using hlast

theorem NumberParts.Say.length_significantDigits_le {parts : NumberParts} {d : Decimal}
    (h : parts.Say d) (hdigits : HasDigits digitLimit d.coefficient) :
    (significantDigits parts.whole parts.places).length ≤ digitLimit := by
  obtain ⟨zeros, hvalue, -⟩ := h.exists_zeros
  apply Json.length_significantDigits_le h.isDigit_whole h.isDigit_places
    (h.length_whole_le.trans (by decide))
  rw [hvalue]
  exact hdigits.mul_tenTo zeros

/-- Parts that say a decimal denote the same double. -/
theorem NumberParts.Say.toBinary64_ofDigits {parts : NumberParts} {d : Decimal} (h : parts.Say d) :
    (Decimal.ofDigits d.negative parts.whole parts.places parts.power).toBinary64 =
      d.toBinary64 := by
  obtain ⟨zeros, hvalue, hpoint⟩ := h.exists_zeros
  refine toBinary64_eq_of_toRat_eq (d := .ofDigits d.negative _ _ _) rfl ?_
  by_cases hzero : d.coefficient = 0
  · simp only [toRat, Decimal.ofDigits, hvalue, hzero, Nat.cast_zero, zero_mul]
  · have hten : (10 : ℚ) ≠ 0 := by norm_num
    simp only [toRat, Decimal.ofDigits, hvalue, hpoint hzero, tenTo_eq, Nat.cast_mul, Nat.cast_pow,
      Nat.cast_ofNat]
    rw [zpow_sub₀ hten, zpow_natCast, mul_assoc, mul_div_cancel₀ _ (pow_ne_zero zeros hten)]

theorem NumberParts.Say.isNearest {parts : NumberParts} {d : Decimal} (h : parts.Say d) :
    d.toBinary64.IsNearest
      |(Decimal.ofDigits d.negative parts.whole parts.places parts.power).toRat| := by
  rw [← h.toBinary64_ofDigits]
  exact isNearest_toBinary64 _

end CoefficientForm.Json
