-- SUMMARY: The exact value of a decimal, and the double nearest to it.
import CoefficientForm.Decimal.Numeral
import CoefficientForm.Proofs.Binary64.Nearest
import CoefficientForm.Proofs.Decimal.Nearest

/-!
# Exact values of decimals

A decimal is a rational number. The double made for it has its sign and is the nearest one to its
magnitude, however large or small that is. A decimal that some double holds exactly is not rounded.
-/

namespace CoefficientForm.Decimal

open Binary64 (withSign abs_withSign toRat_eq_withSign)

/-- The exact value. -/
def toRat (d : Decimal) : ℚ := withSign d.negative (d.coefficient * 10 ^ d.exponent)

theorem abs_toRat (d : Decimal) : |d.toRat| = d.coefficient * 10 ^ d.exponent := by
  rw [toRat, abs_withSign, abs_of_nonneg (by positivity)]

theorem exists_toRat_eq_of_exponent_nonneg (d : Decimal) (h : 0 ≤ d.exponent) :
    ∃ n : ℤ, d.toRat = n := by
  obtain ⟨k, hk⟩ := Int.eq_ofNat_of_zero_le h
  cases hsign : d.negative with
  | false => exact ⟨d.coefficient * 10 ^ k, by simp [toRat, withSign, hsign, hk]⟩
  | true => exact ⟨-(d.coefficient * 10 ^ k), by simp [toRat, withSign, hsign, hk]⟩

/-- Zeros behind the last place change nothing. -/
theorem toRat_ofDigits_append_zeros (negative : Bool) (whole places : List Char) (zeros : ℕ)
    (power : ℤ) :
    (ofDigits negative whole (places ++ List.replicate zeros '0') power).toRat =
      (ofDigits negative whole places power).toRat := by
  have hdigits : Nat.ofDigitChars 10 (whole ++ (places ++ List.replicate zeros '0')) 0 =
      10 ^ zeros * Nat.ofDigitChars 10 (whole ++ places) 0 := by
    rw [← List.append_assoc, Nat.ofDigitChars_append _, Nat.ofDigitChars_replicate_zero]
  have hten : (10 : ℚ) ≠ 0 := by norm_num
  simp only [toRat, ofDigits, hdigits, List.length_append, List.length_replicate, Nat.cast_add,
    Nat.cast_mul, Nat.cast_pow, Nat.cast_ofNat]
  rw [← sub_sub, zpow_sub₀ hten _ (zeros : ℤ), zpow_natCast, mul_comm (10 ^ zeros), mul_assoc,
    mul_div_cancel₀ _ (pow_ne_zero zeros hten)]

theorem ratio_cast (d : Decimal) : (d.ratio.1 / d.ratio.2 : ℚ) = d.coefficient * 10 ^ d.exponent := by
  rw [ratio]
  split
  · rename_i hexponent
    obtain ⟨n, hn⟩ := Int.eq_ofNat_of_zero_le hexponent
    rw [hn, Int.toNat_natCast, tenTo_eq, zpow_natCast]
    push_cast
    exact div_one _
  · rename_i hexponent
    obtain ⟨n, hn⟩ : ∃ n : ℕ, d.exponent = -(n : ℤ) := ⟨(-d.exponent).toNat, by omega⟩
    rw [hn, neg_neg, Int.toNat_natCast, tenTo_eq, zpow_neg, zpow_natCast]
    push_cast
    exact div_eq_mul_inv _ _

/-- No decimal is rounded to anything but its nearest double. -/
theorem isNearest_toBinary64 (d : Decimal) : d.toBinary64.IsNearest |d.toRat| := by
  have hone : (Binary64.one : ℚ) ≠ 0 := Binary64.one_cast_pos.ne'
  have hnearest := Binary64.isNearest_ofUnits d.negative (d.ratio.1 * Binary64.one) (ratio_pos d)
  rw [toBinary64_eq_ofUnits, abs_toRat, ← ratio_cast]
  convert hnearest using 1
  rw [Nat.cast_mul, mul_div_right_comm, mul_div_assoc, div_self hone, mul_one]

theorem negative_toBinary64 (d : Decimal) : d.toBinary64.negative = d.negative := by
  rw [toBinary64_eq_ofUnits]
  rfl

theorem toBinary64_eq_of_toRat_eq {d other : Decimal} (hsign : d.negative = other.negative)
    (h : d.toRat = other.toRat) : d.toBinary64 = other.toBinary64 := by
  apply (isNearest_toBinary64 d).eq
  · rw [h]
    exact isNearest_toBinary64 other
  · rw [negative_toBinary64, negative_toBinary64, hsign]

/-- What a double holds exactly is not rounded. -/
theorem isFinite_and_toRat_toBinary64 {d : Decimal} {x : Binary64} (hx : x.isFinite = true)
    (h : |d.toRat| = x.magnitude) :
    d.toBinary64.isFinite = true ∧ d.toBinary64.toRat = d.toRat := by
  have hnan := Binary64.isNaN_of_isFinite hx
  have hnearest := h ▸ isNearest_toBinary64 d
  constructor
  · rw [Binary64.isFinite, hnearest.rank_eq (Binary64.isNearest_magnitude hnan)]
    exact hx
  · rw [toRat_eq_withSign, negative_toBinary64, hnearest.magnitude_eq hnan, ← h, abs_toRat, toRat]

end CoefficientForm.Decimal
