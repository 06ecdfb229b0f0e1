-- SUMMARY: The floor of a double, the part above it, and the sums that are not rounded.
import CoefficientForm.Proofs.Binary64.Value

/-!
# Floors

A finite double is an integer of 53 bits times a power of two, in units, and a sum of that form is
not rounded. So the floor of a double is exact. The part above the floor is exact up to one half.
Beyond one half it may be rounded, but then not to less than one half.
-/

namespace CoefficientForm.Binary64

/-! ## Counts that are not rounded -/

/-- Whether a count of units is an integer of at most 53 bits times a power of two. -/
def FitsSignificand (count : ℤ) : Prop :=
  ∃ (significand : ℤ) (k : ℕ), count = significand * 2 ^ k ∧ significand.natAbs < 2 * binadeSize

theorem natAbs_scaled (x : Binary64) : x.scaled.natAbs = x.units := by
  cases hs : x.negative <;> simp [scaled, hs]

theorem scaled_neg (x : Binary64) : x.neg.scaled = -x.scaled := by
  cases hs : x.negative <;> simp [scaled, neg, units, hs]

theorem fitsSignificand_scaled (x : Binary64) : FitsSignificand x.scaled := by
  obtain ⟨shift, significand, hrank, hlow, hhigh⟩ := exists_shift_significand x.rank
  have hunits : x.units = significand * 2 ^ shift := by
    rw [units, hrank, unitsOfRank_add hlow hhigh.le]
  cases hs : x.negative with
  | false => exact ⟨significand, shift, by simp [scaled, hs, hunits], by simpa using hhigh⟩
  | true => exact ⟨-significand, shift, by simp [scaled, hs, hunits], by simpa using hhigh⟩

theorem fitsSignificand_mul_one {n : ℤ} (h : n.natAbs < 2 * binadeSize) :
    FitsSignificand (n * one) := by
  refine ⟨n, 1074, ?_, h⟩
  rw [one_eq, Nat.cast_pow, Nat.cast_two]

/-- Rounding a count keeps its sign. -/
theorem scaled_ofScaled (zeroSign : Bool) (count : ℤ) :
    (ofScaled zeroSign count).scaled =
      count.sign * unitsOfRank (nearestRank count.natAbs 1) := by
  rcases lt_trichotomy count 0 with hneg | rfl | hpos
  · have hsign : (ofScaled zeroSign count).negative = true := by
      simp [ofScaled, ofUnits, hneg, hneg.ne]
    rw [scaled, if_pos hsign, Int.sign_eq_neg_one_of_neg hneg, neg_one_mul]
    rfl
  · have hzero : (ofScaled zeroSign 0).scaled = 0 := by
      cases zeroSign <;> decide
    rw [hzero, Int.sign_zero, zero_mul]
  · have hsign : ¬ (ofScaled zeroSign count).negative = true := by
      simp [ofScaled, ofUnits, hpos.le, hpos.ne']
    rw [scaled, if_neg hsign, Int.sign_eq_one_of_pos hpos, one_mul]
    rfl

theorem isFinite_and_scaled_ofScaled {count : ℤ} (zeroSign : Bool) (h : FitsSignificand count)
    (hlt : count.natAbs < 2 ^ 2098) :
    (ofScaled zeroSign count).isFinite = true ∧ (ofScaled zeroSign count).scaled = count := by
  obtain ⟨significand, k, hcount, hsignificand⟩ := h
  have habs : count.natAbs = significand.natAbs * 2 ^ k := by
    rw [hcount, Int.natAbs_mul, Int.natAbs_pow]
    rfl
  have hexact := isFinite_and_units_ofUnits
    (if count = 0 then zeroSign else decide (count < 0)) hsignificand (habs ▸ hlt)
  rw [← habs] at hexact
  refine ⟨hexact.1, ?_⟩
  have hunits : unitsOfRank (nearestRank count.natAbs 1) = count.natAbs := hexact.2
  rw [scaled_ofScaled, hunits, Int.sign_mul_natAbs]

/-- What is not below a double is not rounded to below it. -/
theorem scaled_le_scaled_ofScaled {y : Binary64} {count : ℤ} (zeroSign : Bool)
    (hy : y.isFinite = true) (hnonneg : 0 ≤ y.scaled) (h : y.scaled ≤ count) :
    y.scaled ≤ (ofScaled zeroSign count).scaled := by
  have hscaled : y.scaled = y.units := by
    rw [← natAbs_scaled, Int.natAbs_of_nonneg hnonneg]
  have hrank : y.rank ≤ nearestRank count.natAbs 1 := by
    rw [← nearestRank_unitsOfRank (Nat.le_of_lt (of_decide_eq_true hy))]
    apply nearestRank_mono
    show y.units ≤ count.natAbs
    omega
  rcases hnonneg.trans h |>.lt_or_eq with hpos | rfl
  · rw [scaled_ofScaled, Int.sign_eq_one_of_pos hpos, one_mul, hscaled]
    exact_mod_cast unitsOfRank_strictMono.monotone hrank
  · rw [scaled_ofScaled, Int.sign_zero, zero_mul]
    exact h

theorem isFinite_ofScaled {y : Binary64} {count : ℤ} (zeroSign : Bool) (hy : y.isFinite = true)
    (h : count.natAbs ≤ y.units) : (ofScaled zeroSign count).isFinite = true := by
  have hfinite : y.rank < infinityRank := of_decide_eq_true hy
  apply decide_eq_true
  calc nearestRank count.natAbs 1 ≤ nearestRank y.units 1 := nearestRank_mono 1 h
    _ = y.rank := nearestRank_unitsOfRank hfinite.le
    _ < infinityRank := hfinite

/-! ## Integers and their neighbours -/

/-- From 2^52 up there are no fractions. -/
theorem units_lt_of_not_isIntegral {x : Binary64} (h : ¬ x.isIntegral = true) :
    x.units < binadeSize * one := by
  obtain ⟨shift, significand, hrank, hlow, hhigh⟩ := exists_shift_significand x.rank
  have hunits : x.units = significand * 2 ^ shift := by
    rw [units, hrank, unitsOfRank_add hlow hhigh.le]
  have hshift : shift ≤ 1073 := by
    by_contra hge
    have hdvd : one ∣ x.units := by
      rw [hunits, one_eq]
      exact Dvd.dvd.mul_left (pow_dvd_pow 2 (by omega)) significand
    exact h (by simpa [isIntegral] using Nat.mod_eq_zero_of_dvd hdvd)
  calc x.units = significand * 2 ^ shift := hunits
    _ < 2 * binadeSize * 2 ^ shift := Nat.mul_lt_mul_of_pos_right hhigh (by positivity)
    _ = binadeSize * 2 ^ (shift + 1) := by ring
    _ ≤ binadeSize * one := by
      rw [one_eq]
      exact Nat.mul_le_mul_left _ (pow_le_pow_right₀ (by decide) (by omega))

/-- The integers on either side of a double with a fraction have fewer than 53 bits. -/
theorem natAbs_ediv_one_le {x : Binary64} (h : ¬ x.isIntegral = true) :
    (x.scaled / one).natAbs ≤ binadeSize := by
  have habs : |x.scaled| < binadeSize * one := by
    rw [Int.abs_eq_natAbs, natAbs_scaled]
    exact_mod_cast units_lt_of_not_isIntegral h
  obtain ⟨hlow, hhigh⟩ := abs_lt.1 habs
  have hpos : (0 : ℤ) < one := by exact_mod_cast one_units_pos
  have hbelow : -(binadeSize : ℤ) ≤ x.scaled / one := by
    rw [Int.le_ediv_iff_mul_le hpos, neg_mul]
    exact hlow.le
  have habove : x.scaled / one < binadeSize := Int.ediv_lt_of_lt_mul hpos hhigh
  omega

theorem isFinite_and_scaled_of_integer {n : ℤ} (zeroSign : Bool)
    (h : n.natAbs < 2 * binadeSize) :
    (ofScaled zeroSign (n * one)).isFinite = true ∧
      (ofScaled zeroSign (n * one)).scaled = n * one := by
  apply isFinite_and_scaled_ofScaled zeroSign (fitsSignificand_mul_one h)
  rw [Int.natAbs_mul, Int.natAbs_natCast, one_eq]
  exact mul_two_pow_lt h le_rfl

theorem isFinite_and_scaled_floor {x : Binary64} (hx : x.isFinite = true) :
    x.floor.isFinite = true ∧ x.floor.scaled = x.scaled / one * one := by
  by_cases h : x.isIntegral = true
  · rw [floor_of_isIntegral hx h]
    exact ⟨hx, (Int.ediv_mul_cancel (one_dvd_scaled_iff.2 h)).symm⟩
  · rw [floor, if_pos hx]
    apply isFinite_and_scaled_of_integer
    exact Nat.lt_of_le_of_lt (natAbs_ediv_one_le h) (by decide)

/-! ## The part above the floor -/

theorem add_of_isFinite {x y : Binary64} (hx : x.isFinite = true) (hy : y.isFinite = true) :
    x.add y = ofScaled (x.negative && y.negative) (x.scaled + y.scaled) := by
  simp [add, isNaN_of_isFinite hx, isNaN_of_isFinite hy, isInfinite_of_isFinite hx,
    isInfinite_of_isFinite hy]

theorem exists_sub_floor_eq {x : Binary64} (hx : x.isFinite = true) :
    ∃ zeroSign, x.sub x.floor = ofScaled zeroSign (x.scaled % one) := by
  obtain ⟨hfloor, hscaled⟩ := isFinite_and_scaled_floor hx
  have hneg : x.floor.neg.isFinite = true := hfloor
  have hrest : x.scaled + x.floor.neg.scaled = x.scaled % one := by
    rw [scaled_neg, hscaled, Int.emod_def, mul_comm (one : ℤ), ← sub_eq_add_neg]
  exact ⟨_, by rw [sub, add_of_isFinite hx hneg, hrest]⟩

/-- A rest of at most half the divisor is no larger than what was divided. -/
theorem natAbs_emod_le {n d : ℤ} (hd : 0 < d) (h : 2 * (n % d) ≤ d) :
    (n % d).natAbs ≤ n.natAbs := by
  have hrest := Int.emod_nonneg n hd.ne'
  have hsum := Int.mul_ediv_add_emod n d
  rcases lt_or_ge (n / d) 0 with hneg | hnonneg
  · have hbelow : d * (n / d) ≤ d * -1 := mul_le_mul_of_nonneg_left (by omega) hd.le
    omega
  · have habove : 0 ≤ d * (n / d) := mul_nonneg hd.le hnonneg
    omega

/-- Up to one half, the part above the floor needs no more bits than the number itself. -/
theorem fitsSignificand_emod_one {x : Binary64} (h : 2 * (x.scaled % one) ≤ one) :
    FitsSignificand (x.scaled % one) := by
  obtain ⟨significand, k, hscaled, hsignificand⟩ := fitsSignificand_scaled x
  rw [hscaled] at h ⊢
  have hone : (one : ℤ) = 2 ^ 1074 := by rw [one_eq, Nat.cast_pow, Nat.cast_two]
  rcases Nat.le_total 1074 k with hk | hk
  · have hdvd : (one : ℤ) ∣ significand * 2 ^ k := by
      rw [hone]
      exact Dvd.dvd.mul_left (pow_dvd_pow 2 hk) significand
    rw [Int.emod_eq_zero_of_dvd hdvd]
    exact ⟨0, 0, rfl, by decide⟩
  · have hsplit : (one : ℤ) = 2 ^ k * 2 ^ (1074 - k) := by
      rw [hone, ← pow_add, Nat.add_sub_cancel' hk]
    have hpos : (0 : ℤ) < 2 ^ k := by positivity
    rw [hsplit, mul_comm significand, Int.mul_emod_mul_of_pos _ _ hpos] at h ⊢
    refine ⟨_, k, mul_comm _ _, Nat.lt_of_le_of_lt (natAbs_emod_le (by positivity) ?_) hsignificand⟩
    rw [mul_left_comm] at h
    exact le_of_mul_le_mul_left h hpos

theorem natAbs_emod_one_lt (n : ℤ) : (n % one).natAbs < one := by
  have hpos : (0 : ℤ) < one := by exact_mod_cast one_units_pos
  have hnonneg := Int.emod_nonneg n hpos.ne'
  have hlt := Int.emod_lt_of_pos n hpos
  omega

theorem isFinite_sub_floor {x : Binary64} (hx : x.isFinite = true) :
    (x.sub x.floor).isFinite = true := by
  obtain ⟨zeroSign, hsub⟩ := exists_sub_floor_eq hx
  have hunits : (ofUInt32 1).units = 1 * one := units_ofUInt32 1
  rw [hsub]
  apply isFinite_ofScaled zeroSign (isFinite_ofUInt32 1)
  rw [hunits, Nat.one_mul]
  exact (natAbs_emod_one_lt x.scaled).le

/-- The part above the floor, rounded, is below one half exactly when it is so unrounded. -/
theorem sub_floor_less_iff {x half : Binary64} (hx : x.isFinite = true)
    (hhalf : half.isFinite = true) (h : 2 * half.scaled = one) :
    (x.sub x.floor).less half = true ↔ 2 * (x.scaled % one) < one := by
  obtain ⟨zeroSign, hsub⟩ := exists_sub_floor_eq hx
  rw [less_iff (isFinite_sub_floor hx) hhalf, hsub]
  by_cases hlt : 2 * (x.scaled % one) < one
  · have hbound : (x.scaled % one).natAbs < 2 ^ 2098 := by
      apply (natAbs_emod_one_lt x.scaled).trans
      rw [one_eq]
      exact pow_lt_pow_right₀ (by decide) (by decide)
    have hexact := isFinite_and_scaled_ofScaled zeroSign (fitsSignificand_emod_one hlt.le) hbound
    rw [hexact.2]
    omega
  · have hge : half.scaled ≤ (ofScaled zeroSign (x.scaled % one)).scaled :=
      scaled_le_scaled_ofScaled zeroSign hhalf (by omega) (by omega)
    omega

/-! ## Rational values -/

theorem toRat_eq_intCast_iff {x : Binary64} {n : ℤ} : x.toRat = n ↔ x.scaled = n * one := by
  rw [toRat, div_eq_iff one_cast_pos.ne']
  norm_cast

theorem less_iff_toRat {x y : Binary64} (hx : x.isFinite = true) (hy : y.isFinite = true) :
    x.less y = true ↔ x.toRat < y.toRat := by
  rw [less_iff hx hy, toRat, toRat, div_lt_div_iff_of_pos_right one_cast_pos, Int.cast_lt]

theorem isIntegral_iff {x : Binary64} : x.isIntegral = true ↔ ∃ n : ℤ, x.toRat = n := by
  simp only [← one_dvd_scaled_iff, toRat_eq_intCast_iff, dvd_iff_exists_eq_mul_left]

theorem floor_toRat (x : Binary64) : ⌊x.toRat⌋ = x.scaled / one :=
  Rat.floor_intCast_div_natCast x.scaled one

theorem fract_toRat_lt_half_iff {x : Binary64} :
    2 * Int.fract x.toRat < 1 ↔ 2 * (x.scaled % one) < one := by
  rw [toRat, Int.fract_div_intCast_eq_div_intCast_mod, ← mul_div_assoc, div_lt_one one_cast_pos]
  norm_cast

/-- The integer nearest to a double is its floor or the next one. -/
theorem floor_toRat_add_half (x : Binary64) :
    ⌊x.toRat + 1 / 2⌋ =
      if 2 * (x.scaled % one) < one then x.scaled / one else x.scaled / one + 1 := by
  rw [← round_eq, round, floor_toRat]
  simp only [fract_toRat_lt_half_iff]
  split
  · rfl
  · rename_i hge
    have hfract : Int.fract x.toRat ≠ 0 := by
      intro hzero
      rw [← fract_toRat_lt_half_iff, hzero] at hge
      norm_num at hge
    rw [← floor_toRat, Int.ceil_eq_floor_add_one_iff_notMem]
    exact Int.fract_ne_zero_iff.1 hfract

end CoefficientForm.Binary64
