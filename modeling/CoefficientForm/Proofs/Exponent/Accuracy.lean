-- SUMMARY: How near two places are to a number of any size.
import CoefficientForm.Proofs.Exponent.TwoPlaces

/-!
# Accuracy of two places

Beyond 2^44 the product with a hundred, the sum with one half and the quotient may all be rounded,
the floor may lose almost one hundredth, and the print loses up to half of one. Next to so large a
number this is little: no finite number is shown further from itself than by half a hundredth and
one part in 2^50. Where a hundred times the number is infinite, only the print can lose anything.
-/

namespace CoefficientForm.Exponent

open Binary64

variable {x : Binary64} {count : ℕ}

/-! ## The error of each step -/

/-- What is at least one is rounded by at most one part in 2^53. -/
theorem abs_sub_le_of_one_le {y : Binary64} {m : ℚ} (h : y.IsNearest m) (hy : y.isFinite = true)
    (hm : 1 ≤ m) : |y.magnitude - m| ≤ y.magnitude / 2 ^ 53 := by
  obtain ⟨hone, hmagnitude⟩ := isFinite_and_magnitude_ofNat (n := 1) (by decide)
  rw [Nat.cast_one] at hmagnitude
  have hge := h.le_magnitude (isNaN_of_isFinite hone) (hmagnitude.symm ▸ hm)
  rw [hmagnitude] at hge
  exact h.abs_sub_le hy (zero_le_one.trans hm) (binadeSize_le_rank hge)

/-- Printing loses at most half a hundredth. -/
theorem abs_sub_shownHundredths_le (x : Binary64) :
    |100 * (toHundredths x).magnitude - shownHundredths x| ≤ 1 / 2 := by
  have hnear : |(((toHundredths x).units * 100 : ℕ) / one : ℚ) - shownHundredths x| ≤ 1 / 2 :=
    abs_sub_roundHalfEven_le one_units_pos
  have hscaled : (((toHundredths x).units * 100 : ℕ) / one : ℚ) =
      100 * (toHundredths x).magnitude := by
    rw [magnitude, Nat.cast_mul]
    push_cast
    ring
  rwa [hscaled] at hnear

/-- A large number is rounded three times, and loses less than one in the floor. -/
theorem abs_sub_le_of_large (hx : x.isFinite = true) (hlarge : 2 ^ 44 < x.magnitude)
    (hfinite : ((x.abs.mul hundred).add half).floor.isFinite = true) :
    |100 * (toHundredths x).magnitude - 100 * x.magnitude| ≤
      1 / 2 + 100 * x.magnitude / 2 ^ 51 := by
  have hsumFinite := isFinite_of_floor hfinite
  have hproductFinite := isFinite_of_add hsumFinite
  obtain ⟨hhundred, hhundredMagnitude⟩ := isFinite_and_magnitude_hundred
  have hproductSign : (x.abs.mul hundred).negative = false := negative_mul (x := x.abs) hx hhundred
  have hsumSign := negative_add hproductFinite isFinite_half hproductSign rfl
  have hproduct := abs_sub_le_of_one_le (isNearest_mul_hundred hx) hproductFinite (by linarith)
  have hsum := abs_sub_le_of_one_le (isNearest_add_half hproductFinite hproductSign) hsumFinite
    (by rw [abs_le] at hproduct; linarith)
  obtain ⟨hfloorLow, hfloorHigh⟩ := magnitude_floor_bounds hsumFinite hsumSign
  have hdiv := isNearest_div hfinite hhundred (by decide +kernel)
  rw [hhundredMagnitude] at hdiv
  have hquotient : toHundredths x = ((x.abs.mul hundred).add half).floor.div hundred :=
    if_pos hfinite
  rw [← hquotient] at hdiv
  rw [abs_le] at hproduct hsum
  have hquotientFinite : (toHundredths x).isFinite = true := by
    apply isFinite_of_magnitude_le hfinite
    apply hdiv.magnitude_le (isNaN_of_isFinite hfinite)
    linarith
  have hlast := abs_sub_le_of_one_le hdiv hquotientFinite (by linarith)
  rw [abs_le] at hlast ⊢
  constructor <;> linarith

theorem CountsHundredths.abs_sub_le {m : ℚ} (h : CountsHundredths m count) (hm : 0 ≤ m) :
    |count - 100 * m| ≤ 1 / 2 + 100 * m / 2 ^ 50 := by
  have hlow := Nat.floor_le (show 0 ≤ 100 * m + 1 / 2 by linarith)
  have hhigh := Nat.lt_floor_add_one (100 * m + 1 / 2)
  rw [abs_le]
  rcases h with rfl | ⟨rfl, hbelow⟩
  · constructor <;> linarith
  · -- The next count is reached only if there is almost half a hundredth to count.
    have hnonneg : (0 : ℚ) ≤ ⌊100 * m + 1 / 2⌋₊ := Nat.cast_nonneg _
    rw [Nat.cast_succ] at hbelow ⊢
    constructor <;> linarith

/-! ## Numbers of any size -/

/-- However large or small a number is, it is not far from what is shown. -/
theorem abs_shownHundredths_sub_le (hx : x.isFinite = true) :
    |shownHundredths x - 100 * x.magnitude| ≤ 1 / 2 + 100 * x.magnitude / 2 ^ 50 := by
  have hnonneg := x.magnitude_nonneg
  have hprinted := abs_sub_shownHundredths_le x
  rcases le_or_gt x.magnitude (2 ^ 44) with hsmall | hlarge
  · exact (countsHundredths_shown hx hsmall).abs_sub_le hnonneg
  · rw [abs_le] at hprinted ⊢
    by_cases hfinite : ((x.abs.mul hundred).add half).floor.isFinite = true
    · have hmoved := abs_sub_le_of_large hx hlarge hfinite
      rw [abs_le] at hmoved
      constructor <;> linarith
    · have hkept : toHundredths x = x.abs := if_neg hfinite
      have hmagnitude : x.abs.magnitude = x.magnitude := rfl
      rw [hkept, hmagnitude] at hprinted
      constructor <;> linarith

end CoefficientForm.Exponent
