-- SUMMARY: The exponent shown for a double is the exact integer nearest to it, without its sign.
import CoefficientForm.Proofs.Binary64.Floor
import CoefficientForm.Proofs.Exponent

/-!
# The nearest integer

Rounding an exponent takes a floor, a difference, a comparison with one half and perhaps a sum. In
exact arithmetic these give the nearest integer, a half going upwards. In double precision they
give the same: the difference is the only one of them that may be rounded, and the comparison does
not notice. From there on all numbers are integers, and nothing is rounded any more.
-/

namespace CoefficientForm.Exponent

open Binary64

/-! ## Rounding -/

theorem two_mul_scaled_half : 2 * half.scaled = one := by
  decide +kernel

theorem isFinite_half : half.isFinite = true := by
  decide

theorem sub_floor_less_half_iff {x : Binary64} (hx : x.isFinite = true) :
    (x.sub x.floor).less half = true ↔ 2 * (x.scaled % one) < one :=
  sub_floor_less_iff hx isFinite_half two_mul_scaled_half

/-- One more than the floor is not rounded, because a double with a fraction is no large one. -/
theorem isFinite_and_scaled_floor_add_one {x : Binary64} (hx : x.isFinite = true)
    (h : ¬ x.isIntegral = true) :
    (x.floor.add (.ofNat 1)).isFinite = true ∧
      (x.floor.add (.ofNat 1)).scaled = (x.scaled / one + 1) * one := by
  obtain ⟨hfloor, hscaled⟩ := isFinite_and_scaled_floor hx
  have hone : (ofNat 1).isFinite = true := isFinite_ofUInt32 1
  have hscaledOne : (ofNat 1).scaled = 1 * one :=
    (scaled_ofUInt32 1).trans (Nat.cast_mul _ _)
  rw [add_of_isFinite hfloor hone, hscaled, hscaledOne, ← add_mul]
  apply isFinite_and_scaled_of_integer
  have hle := natAbs_ediv_one_le h
  have hsize : binadeSize + 1 < 2 * binadeSize := by decide
  omega

theorem isFinite_and_scaled_nearestInteger {x : Binary64} (hx : x.isFinite = true) :
    (nearestInteger x).isFinite = true ∧
      (nearestInteger x).scaled = ⌊x.toRat + 1 / 2⌋ * one := by
  simp only [nearestInteger, sub_floor_less_half_iff hx, floor_toRat_add_half]
  split
  · exact isFinite_and_scaled_floor hx
  · rename_i hge
    apply isFinite_and_scaled_floor_add_one hx
    intro hintegral
    rw [Int.emod_eq_zero_of_dvd (one_dvd_scaled_iff.2 hintegral)] at hge
    have hpos := one_units_pos
    omega

theorem nearestInteger_sameNumber_iff {x : Binary64} (hx : x.isFinite = true) :
    (nearestInteger x).sameNumber x = true ↔ x.isIntegral = true := by
  obtain ⟨hfinite, hscaled⟩ := isFinite_and_scaled_nearestInteger hx
  constructor
  · intro hsame
    rw [sameNumber_iff hfinite hx, hscaled] at hsame
    exact isIntegral_iff.2 ⟨_, toRat_eq_intCast_iff.2 hsame.symm⟩
  · intro hintegral
    rw [nearestInteger_of_isIntegral hx hintegral]
    exact sameNumber_self hx

/-! ## What is done to an integer -/

/-- What the corrections start from: the number itself if it is an integer, or else the integer
nearest to it. -/
def start (x : Binary64) : Binary64 :=
  if x.isIntegral then x else nearestInteger x

theorem isFinite_and_scaled_start {x : Binary64} (hx : x.isFinite = true) :
    (start x).isFinite = true ∧ (start x).scaled = ⌊x.toRat + 1 / 2⌋ * one := by
  have hnearest := isFinite_and_scaled_nearestInteger hx
  unfold start
  split
  · rename_i hintegral
    rwa [nearestInteger_of_isIntegral hx hintegral] at hnearest
  · exact hnearest

theorem shown_of_isFinite {x : Binary64} (hx : x.isFinite = true) :
    shown x = shownInteger (start x) (if x.isIntegral then [] else [.rounded x (start x)]) := by
  simp only [shown, isNaN_of_isFinite hx, isInfinite_of_isFinite hx, Bool.false_eq_true, if_false,
    nearestInteger_sameNumber_iff hx, start]
  split <;> rfl

theorem less_zero_iff {y : Binary64} {n : ℤ} (hy : y.isFinite = true) (h : y.scaled = n * one) :
    y.less (.zero false) = true ↔ n < 0 := by
  have hzero : (zero false).scaled = 0 := rfl
  have hpos : (0 : ℤ) < one := by exact_mod_cast one_units_pos
  rw [less_iff hy (by decide), hzero, h]
  constructor
  · exact fun hneg => neg_of_mul_neg_left hneg hpos.le
  · exact fun hneg => mul_neg_of_neg_of_pos hneg hpos

theorem scaled_abs {y : Binary64} {n : ℤ} (h : y.scaled = n * one) :
    y.abs.scaled = n.natAbs * one := by
  have habs : y.abs.scaled = y.units := rfl
  rw [habs, ← natAbs_scaled, h, Int.natAbs_mul, Int.natAbs_natCast, Nat.cast_mul]

theorem scaled_of_nonneg {y : Binary64} {n : ℤ} (h : y.scaled = n * one) (hn : 0 ≤ n) :
    y.scaled = n.natAbs * one := by
  rw [h, Int.natAbs_of_nonneg hn]

section Magnitude

variable {y : Binary64} {n : ℕ}

/-- An integer in the range is converted to itself. -/
theorem toNat_toUInt32 (h : y.scaled = n * one) (hn : n ≤ 2 ^ 32 - 1) : y.toUInt32.toNat = n := by
  have hunits : y.units = n * one := by
    rw [← natAbs_scaled, h]
    rfl
  rw [toUInt32, hunits, Nat.mul_div_cancel _ one_units_pos]
  exact UInt32.toNat_ofNat_of_lt' (Nat.lt_of_le_of_lt hn (by decide))

theorem largest_less_iff (hy : y.isFinite = true) (h : y.scaled = n * one) :
    (ofUInt32 largest).less y = true ↔ 2 ^ 32 - 1 < n := by
  have hlargest : largest.toNat = 2 ^ 32 - 1 := rfl
  rw [less_iff (isFinite_ofUInt32 _) hy, scaled_ofUInt32, h, hlargest]
  norm_cast
  exact Nat.mul_lt_mul_right one_units_pos

theorem value_shownMagnitude (hy : y.isFinite = true) (h : y.scaled = n * one)
    (before : List Correction) :
    (shownMagnitude y before).value.toNat = min n (2 ^ 32 - 1) := by
  simp only [shownMagnitude, largest_less_iff hy h]
  split
  · rename_i hlt
    rw [Nat.min_eq_right hlt.le]
    rfl
  · rename_i hge
    rw [Nat.min_eq_left (Nat.not_lt.1 hge), toNat_toUInt32 h (Nat.not_lt.1 hge)]

end Magnitude

theorem value_shownInteger {y : Binary64} {n : ℤ} (hy : y.isFinite = true)
    (h : y.scaled = n * one) (before : List Correction) :
    (shownInteger y before).value.toNat = min n.natAbs (2 ^ 32 - 1) := by
  simp only [shownInteger, less_zero_iff hy h]
  split
  · exact value_shownMagnitude (y := y.abs) hy (scaled_abs h) _
  · rename_i hnonneg
    exact value_shownMagnitude hy (scaled_of_nonneg h (Int.not_lt.1 hnonneg)) before

/-! ## The exponent shown -/

theorem shown_of_isNaN {x : Binary64} (h : x.isNaN = true) : shown x = ⟨0, [.replaced x 0]⟩ := by
  rw [shown, if_pos h]

theorem shown_of_isInfinite {x : Binary64} (h : x.isInfinite = true) :
    shown x = ⟨largest, [.replaced x largest]⟩ := by
  have hnan : ¬ x.isNaN = true := by
    simp only [isInfinite, isNaN, beq_iff_eq, decide_eq_true_eq] at h ⊢
    omega
  rw [shown, if_neg hnan, if_pos h]

theorem isNaN_or_isInfinite {x : Binary64} (h : ¬ x.isFinite = true) :
    x.isNaN = true ∨ x.isInfinite = true := by
  by_contra hnone
  rw [not_or] at hnone
  exact h (isFinite_of_not_isNaN hnone.1 hnone.2)

theorem exists_shown_of_not_isFinite {x : Binary64} (h : ¬ x.isFinite = true) :
    ∃ value, shown x = ⟨value, [.replaced x value]⟩ := by
  rcases isNaN_or_isInfinite h with hnan | hinf
  · exact ⟨0, shown_of_isNaN hnan⟩
  · exact ⟨largest, shown_of_isInfinite hinf⟩

/-- Every double is shown as its exact value asks for. A finite one is rounded to the nearest
integer, a half going upwards, then loses its sign, and is cut to 32 bits. No step in double
precision differs from the exact one: neither the floor, nor the comparison of the part above it
with one half, nor the rounded integer. NaN is shown as 0, and infinity as the largest exponent. -/
theorem shown_exact (x : Binary64) :
    (x.isFinite = true →
      x.floor.toRat = ⌊x.toRat⌋ ∧
      ((x.sub x.floor).less half = true ↔ x.toRat - ⌊x.toRat⌋ < 1 / 2) ∧
      (nearestInteger x).isFinite = true ∧ (nearestInteger x).toRat = ⌊x.toRat + 1 / 2⌋ ∧
      (shown x).value.toNat = min ⌊x.toRat + 1 / 2⌋.natAbs (2 ^ 32 - 1)) ∧
    (x.isNaN = true → (shown x).value.toNat = 0) ∧
    (x.isInfinite = true → (shown x).value.toNat = 2 ^ 32 - 1) := by
  refine ⟨?_, ?_, ?_⟩
  · intro hx
    obtain ⟨hnearest, hscaled⟩ := isFinite_and_scaled_nearestInteger hx
    obtain ⟨hstart, hvalue⟩ := isFinite_and_scaled_start hx
    refine ⟨?_, ?_, hnearest, toRat_eq_intCast_iff.2 hscaled, ?_⟩
    · rw [toRat_eq_intCast_iff, floor_toRat]
      exact (isFinite_and_scaled_floor hx).2
    · rw [sub_floor_less_half_iff hx, ← fract_toRat_lt_half_iff, lt_div_iff₀' two_pos]
      rfl
    · rw [shown_of_isFinite hx]
      exact value_shownInteger hstart hvalue _
  · intro hnan
    rw [shown_of_isNaN hnan]
    rfl
  · intro hinf
    rw [shown_of_isInfinite hinf]
    rfl

/-- The double next below one half rounds to 0, and the smallest below zero too, although the part
above its floor is rounded to 1. Halves go upwards on either side of zero, and 2^32 is cut. -/
theorem shown_exact_of_hard_cases :
    let belowHalf : Binary64 := ⟨false, half.rank - 1, by decide⟩
    let belowZero : Binary64 := ⟨true, 1, by decide⟩
    let negativeTie : Binary64 := ⟨true, 0x4004000000000000, by decide⟩
    let beyond : Binary64 := ⟨false, 0x41F0000000000000, by decide⟩
    (shown belowHalf).value.toNat = min ⌊belowHalf.toRat + 1 / 2⌋.natAbs (2 ^ 32 - 1) ∧
      (shown belowHalf).value = 0 ∧
    (nearestInteger belowZero).toRat = ⌊belowZero.toRat + 1 / 2⌋ ∧
      belowZero.sub belowZero.floor = ofUInt32 1 ∧
    (shown negativeTie).value.toNat = min ⌊negativeTie.toRat + 1 / 2⌋.natAbs (2 ^ 32 - 1) ∧
      (shown negativeTie).value = 2 ∧
    (shown beyond).value.toNat = min ⌊beyond.toRat + 1 / 2⌋.natAbs (2 ^ 32 - 1) ∧
      (shown beyond).value = largest ∧
    (shown (nan true)).value.toNat = 0 ∧ (shown (infinity true)).value.toNat = 2 ^ 32 - 1 := by
  intro belowHalf belowZero negativeTie beyond
  obtain ⟨-, -, -, -, hhalf⟩ := (shown_exact belowHalf).1 (by decide)
  obtain ⟨-, -, -, hzero, -⟩ := (shown_exact belowZero).1 (by decide)
  obtain ⟨-, -, -, -, htie⟩ := (shown_exact negativeTie).1 (by decide)
  obtain ⟨-, -, -, -, hbeyond⟩ := (shown_exact beyond).1 (by decide)
  exact ⟨hhalf, by decide +kernel, hzero, by decide +kernel, htie, by decide +kernel, hbeyond,
    by decide +kernel, (shown_exact (nan true)).2.1 (by decide),
    (shown_exact (infinity true)).2.2 (by decide)⟩

end CoefficientForm.Exponent
