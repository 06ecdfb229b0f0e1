-- SUMMARY: How far a number can be from the double nearest to it.
import CoefficientForm.Proofs.Binary64.Nearest

/-!
# Spacing

From one rank to the next the units grow by a power of two that only grows along the ranks. The
nearest double is at most half of that away. Beyond the first binade this is one part in 2^53 of
the double, so that a number with that double is told from it by no fewer digits.
-/

namespace CoefficientForm.Binary64

/-! ## Steps along the ranks -/

/-- How many units there are from a rank to the next. -/
def spacing (rank : ℕ) : ℕ := 2 ^ (rank / binadeSize - 1)

theorem unitsOfRank_succ (rank : ℕ) : unitsOfRank (rank + 1) = unitsOfRank rank + spacing rank := by
  obtain ⟨shift, significand, rfl, hlow, hhigh⟩ := exists_shift_significand rank
  have hshift : (shift * binadeSize + significand) / binadeSize - 1 = shift := by
    simp only [binadeSize] at hlow hhigh ⊢
    omega
  have hnext : shift = 0 ∨ binadeSize ≤ significand + 1 := hlow.imp_right Nat.le_succ_of_le
  rw [spacing, hshift, Nat.add_assoc, unitsOfRank_add hlow hhigh.le, unitsOfRank_add hnext hhigh,
    Nat.succ_mul]

theorem spacing_le_spacing {rank other : ℕ} (h : rank ≤ other) : spacing rank ≤ spacing other :=
  Nat.pow_le_pow_right (by decide) (Nat.sub_le_sub_right (Nat.div_le_div_right h) 1)

/-- Beyond the first binade a double has all of its 53 bits. -/
theorem binadeSize_mul_spacing_le {rank : ℕ} (h : binadeSize ≤ rank) :
    binadeSize * spacing rank ≤ unitsOfRank rank := by
  obtain ⟨shift, significand, rfl, hlow, hhigh⟩ := exists_shift_significand rank
  have hshift : (shift * binadeSize + significand) / binadeSize - 1 = shift := by
    simp only [binadeSize] at hlow hhigh ⊢
    omega
  have hfull : binadeSize ≤ significand := by
    simp only [binadeSize] at hlow h ⊢
    omega
  rw [spacing, hshift, unitsOfRank_add hlow hhigh.le]
  exact Nat.mul_le_mul_right _ hfull

/-! ## Distance to the nearest double -/

variable {x : Binary64} {m : ℚ}

/-- A number is at most half a step away from the double nearest to it. -/
theorem IsNearest.two_mul_abs_sub_le (h : x.IsNearest m) (hx : x.isFinite = true) (hm : 0 ≤ m) :
    2 * |x.magnitude - m| ≤ spacing x.rank / one := by
  have hrank : x.rank < infinityRank := of_decide_eq_true hx
  rcases le_total x.magnitude m with hle | hge
  · let next : Binary64 := ⟨x.negative, x.rank + 1, Nat.lt_of_le_of_lt hrank (by decide)⟩
    have hhalf := h.le_add (y := next) (Nat.lt_succ_self _) (isNaN_eq_false_iff.2 hrank)
    have hnext : next.magnitude = x.magnitude + spacing x.rank / one := by
      rw [magnitude, magnitude, ← add_div, units, unitsOfRank_succ, Nat.cast_add, units]
    rw [abs_sub_comm, abs_of_nonneg (sub_nonneg.2 hle)]
    linarith
  · rcases Nat.eq_zero_or_pos x.rank with hzero | hpos
    · have hmagnitude : x.magnitude = 0 := by
        rw [magnitude, units_eq_zero_iff.2 hzero, Nat.cast_zero, zero_div]
      have hm : x.magnitude - m = 0 := by linarith
      rw [hm, abs_zero, mul_zero]
      exact div_nonneg (Nat.cast_nonneg _) one_cast_pos.le
    · let before : Binary64 :=
        ⟨x.negative, x.rank - 1, Nat.lt_of_le_of_lt (Nat.sub_le _ _) x.rank_lt⟩
      have hhalf := h.add_le (y := before) (Nat.sub_lt hpos Nat.one_pos)
      have hbefore : x.magnitude ≤ before.magnitude + spacing x.rank / one := by
        rw [magnitude, magnitude, ← add_div, div_le_div_iff_of_pos_right one_cast_pos,
          ← Nat.cast_add, Nat.cast_le]
        calc x.units = unitsOfRank (x.rank - 1) + spacing (x.rank - 1) := by
              rw [← unitsOfRank_succ, Nat.sub_add_cancel hpos, units]
          _ ≤ before.units + spacing x.rank :=
            Nat.add_le_add_left (spacing_le_spacing (Nat.sub_le _ _)) _
      rw [abs_of_nonneg (sub_nonneg.2 hge)]
      linarith

/-- The steps up to a double are no wider than those at the double itself. -/
theorem IsNearest.abs_sub_le_of_rank_le (h : x.IsNearest m) (hm : 0 ≤ m) {y : Binary64}
    (hy : y.isFinite = true) (hrank : binadeSize ≤ y.rank) (hle : x.rank ≤ y.rank) :
    |x.magnitude - m| ≤ y.magnitude / 2 ^ 53 := by
  have hx : x.isFinite = true := decide_eq_true (hle.trans_lt (of_decide_eq_true hy))
  have hspacing : 2 ^ 52 * (spacing x.rank / one : ℚ) ≤ y.magnitude := by
    rw [← mul_div_assoc, magnitude, div_le_div_iff_of_pos_right one_cast_pos]
    have hunits := (Nat.mul_le_mul_left binadeSize (spacing_le_spacing hle)).trans
      (binadeSize_mul_spacing_le hrank)
    exact_mod_cast hunits
  have hhalf := h.two_mul_abs_sub_le hx hm
  rw [le_div_iff₀ (by positivity)]
  linarith

/-- Beyond the first binade the nearest double is right in all of its 53 bits. -/
theorem IsNearest.abs_sub_le (h : x.IsNearest m) (hx : x.isFinite = true) (hm : 0 ≤ m)
    (hrank : binadeSize ≤ x.rank) : |x.magnitude - m| ≤ x.magnitude / 2 ^ 53 :=
  h.abs_sub_le_of_rank_le hm hx hrank le_rfl

theorem binadeSize_le_rank (h : 1 ≤ x.magnitude) : binadeSize ≤ x.rank := by
  have hfirst : unitsOfRank binadeSize = 2 ^ 52 := by decide
  have hunits : one ≤ x.units := by
    rw [magnitude, le_div_iff₀ one_cast_pos, one_mul] at h
    exact_mod_cast h
  rw [← unitsOfRank_strictMono.le_iff_le, hfirst]
  calc 2 ^ 52 ≤ 2 ^ 1074 := pow_le_pow_right₀ (by decide) (by decide)
    _ = one := one_eq.symm
    _ ≤ x.units := hunits

/-- What is nearest to zero is no more than half a unit away from it. -/
theorem IsNearest.two_mul_le_of_zero (h : x.IsNearest m) (hm : 0 ≤ m) (hx : x.rank = 0) :
    2 * m ≤ 1 / one := by
  have hfinite : x.isFinite = true := by
    rw [isFinite, hx]
    rfl
  have hmagnitude : x.magnitude = 0 := by
    rw [magnitude, units_eq_zero_iff.2 hx, Nat.cast_zero, zero_div]
  have hhalf := h.two_mul_abs_sub_le hfinite hm
  have hspacing : spacing 0 = 1 := rfl
  rwa [hmagnitude, zero_sub, abs_neg, abs_of_nonneg hm, hx, hspacing, Nat.cast_one] at hhalf

/-! ## Overflow -/

theorem spacing_eq_mul_one {rank k : ℕ} (h : rank / binadeSize - 1 = k + 1074) :
    spacing rank = 2 ^ k * one := by
  rw [spacing, h, pow_add, one_eq]

/-- Halfway between the largest finite double and the power of two that comes next. -/
def overflowBound : ℚ := 2 ^ 1024 - 2 ^ 970

theorem magnitude_infinity (negative : Bool) : (infinity negative).magnitude = 2 ^ 1024 := by
  have hexponent : 2098 = 1024 + 1074 := rfl
  have hunits : (infinity negative).units = 2 ^ 1024 * one := by
    have hpower := unitsOfRank_infinityRank
    rwa [hexponent, pow_add, ← one_eq] at hpower
  rw [magnitude, hunits, Nat.cast_mul, mul_div_cancel_right₀ _ one_cast_pos.ne', Nat.cast_pow,
    Nat.cast_two]

/-- The largest finite double. -/
def greatest : Binary64 := ⟨false, infinityRank - 1, by decide⟩

theorem greatest_add_infinity (negative : Bool) :
    greatest.magnitude + (infinity negative).magnitude = 2 * overflowBound := by
  have hspacing : (spacing greatest.rank : ℚ) = 2 ^ 971 * one := by
    have hbinade : greatest.rank / binadeSize - 1 = 971 + 1074 := rfl
    rw [spacing_eq_mul_one hbinade, Nat.cast_mul, Nat.cast_pow, Nat.cast_two]
  have hrank : (infinity negative).rank = greatest.rank + 1 := rfl
  have hunits : (infinity negative).units = greatest.units + spacing greatest.rank := by
    rw [units, hrank, unitsOfRank_succ, units]
  have hnext : (infinity negative).magnitude = greatest.magnitude + 2 ^ 971 := by
    rw [magnitude, hunits, Nat.cast_add, add_div, hspacing,
      mul_div_cancel_right₀ _ one_cast_pos.ne', magnitude]
  have hdouble : (2 : ℚ) ^ 971 = 2 * 2 ^ 970 := pow_succ' 2 970
  rw [magnitude_infinity, hdouble] at hnext
  rw [magnitude_infinity, overflowBound, mul_sub, two_mul (2 ^ 1024 : ℚ),
    eq_sub_of_add_eq hnext.symm, sub_add_eq_add_sub]

/-- The nearest double is finite below the halfway point. The point itself goes to infinity, because
the largest finite double has an odd rank. -/
theorem IsNearest.isFinite_iff (h : x.IsNearest m) : x.isFinite = true ↔ m < overflowBound := by
  have hinfinity : (infinity false).isNaN = false := rfl
  have hsum := greatest_add_infinity false
  constructor
  · intro hx
    have hlt : x.rank < infinityRank := of_decide_eq_true hx
    have hhalf := h.le_add hlt hinfinity
    have hrank : x.rank ≤ greatest.rank := Nat.le_sub_one_of_lt hlt
    rcases hrank.lt_or_eq with hless | heq
    · have hbelow := magnitude_lt_magnitude_iff.2 hless
      linarith
    · have hmagnitude := magnitude_eq_magnitude_iff.2 heq
      refine lt_of_le_of_ne (by linarith) ?_
      rintro rfl
      have hodd := h.even_of_tie (infinity false) hinfinity hlt.ne' ?_
      · rw [heq] at hodd
        exact absurd hodd (by decide)
      · have hmiddle : (infinity false).magnitude - overflowBound =
            -(x.magnitude - overflowBound) := by linarith
        rw [hmiddle, abs_neg]
  · intro hm
    by_contra hx
    have hrank : infinityRank ≤ x.rank := Nat.not_lt.1 fun hlt => hx (decide_eq_true hlt)
    have hgreatest : greatest.rank < x.rank := Nat.lt_of_lt_of_le (by decide) hrank
    have hhalf := h.add_le hgreatest
    have hmagnitude : (infinity false).magnitude ≤ x.magnitude := by
      rw [← not_lt, magnitude_lt_magnitude_iff]
      exact Nat.not_lt.2 hrank
    linarith

end CoefficientForm.Binary64
