-- SUMMARY: The exact value of a finite double, and the integers among the doubles.
import CoefficientForm.Binary64.Arithmetic
import CoefficientForm.Proofs.Binary64.Rank

/-!
# Exact values

A finite double is a rational number, its count of units by the units in one. The comparisons
compare these numbers, and every natural number below 2^53 is the value of the double made for it.
-/

namespace CoefficientForm.Binary64

theorem one_eq : one = 2 ^ 1074 := by
  -- The two powers on naturals agree at a variable. At a numeral they would be computed.
  have hpow : ∀ k, 1 <<< k = 2 ^ k := Nat.one_shiftLeft
  exact hpow 1074

theorem one_units_pos : 0 < one := by
  rw [one_eq]
  positivity

theorem one_cast_pos : (0 : ℚ) < one :=
  Nat.cast_pos.2 one_units_pos

/-- The exact value of a finite double. -/
def toRat (x : Binary64) : ℚ := x.scaled / one

/-! ## Kinds and order -/

theorem isNaN_of_isFinite {x : Binary64} (h : x.isFinite = true) : x.isNaN = false := by
  simp only [isFinite, isNaN, decide_eq_true_eq, decide_eq_false_iff_not] at h ⊢
  omega

theorem isInfinite_of_isFinite {x : Binary64} (h : x.isFinite = true) : x.isInfinite = false := by
  simp only [isFinite, isInfinite, decide_eq_true_eq, beq_eq_false_iff_ne] at h ⊢
  omega

theorem isFinite_of_not_isNaN {x : Binary64} (hnan : ¬ x.isNaN = true)
    (hinf : ¬ x.isInfinite = true) : x.isFinite = true := by
  simp only [isNaN, isInfinite, isFinite, decide_eq_true_eq, beq_iff_eq] at hnan hinf ⊢
  omega

theorem units_lt_units_iff {x y : Binary64} : x.units < y.units ↔ x.rank < y.rank :=
  unitsOfRank_strictMono.lt_iff_lt

theorem units_eq_zero_iff {x : Binary64} : x.units = 0 ↔ x.rank = 0 := by
  have hzero : unitsOfRank 0 = 0 := rfl
  exact hzero ▸ unitsOfRank_strictMono.injective.eq_iff (a := x.rank) (b := 0)

theorem scaled_lt_scaled_iff {x y : Binary64} :
    x.scaled < y.scaled ↔ x.signedRank < y.signedRank := by
  have hx := units_eq_zero_iff (x := x)
  have hy := units_eq_zero_iff (x := y)
  have hlt := units_lt_units_iff (x := x) (y := y)
  have hgt := units_lt_units_iff (x := y) (y := x)
  cases hxs : x.negative <;> cases hys : y.negative <;>
    simp only [scaled, signedRank, hxs, hys, if_true, Bool.false_eq_true, if_false] <;> omega

theorem less_iff {x y : Binary64} (hx : x.isFinite = true) (hy : y.isFinite = true) :
    x.less y = true ↔ x.scaled < y.scaled := by
  simp [less, isNaN_of_isFinite hx, isNaN_of_isFinite hy, scaled_lt_scaled_iff]

theorem sameNumber_iff {x y : Binary64} (hx : x.isFinite = true) (hy : y.isFinite = true) :
    x.sameNumber y = true ↔ x.scaled = y.scaled := by
  have hlt := scaled_lt_scaled_iff (x := x) (y := y)
  have hgt := scaled_lt_scaled_iff (x := y) (y := x)
  simp only [sameNumber, isNaN_of_isFinite hx, isNaN_of_isFinite hy, Bool.not_false, Bool.true_and,
    beq_iff_eq]
  omega

theorem sameNumber_self {x : Binary64} (h : x.isFinite = true) : x.sameNumber x = true :=
  (sameNumber_iff h h).2 rfl

/-! ## Doubles made from exact values -/

theorem ofUnits_congr {negative : Bool} {num den otherNum otherDen : Nat}
    (h : nearestRank num den = nearestRank otherNum otherDen) :
    ofUnits negative num den = ofUnits negative otherNum otherDen := by
  simp only [ofUnits, h]

theorem ofUnits_units {x : Binary64} (h : x.isFinite = true) :
    ofUnits x.negative x.units 1 = x := by
  have hrank : x.rank ≤ infinityRank := by
    simp only [isFinite, decide_eq_true_eq] at h
    exact h.le
  have hnearest : nearestRank x.units 1 = x.rank := nearestRank_unitsOfRank hrank
  cases x
  simp only [ofUnits, hnearest]

theorem ofScaled_scaled {x : Binary64} (h : x.isFinite = true) :
    ofScaled x.negative x.scaled = x := by
  have habs : x.scaled.natAbs = x.units := by
    cases hs : x.negative <;> simp [scaled, hs]
  have hsign : (if x.scaled = 0 then x.negative else decide (x.scaled < 0)) = x.negative := by
    cases hs : x.negative
    · simp [scaled, hs]
    · simp only [scaled, hs, if_true]
      split
      · rfl
      · exact decide_eq_true (by omega)
  rw [ofScaled, habs, hsign, ofUnits_units h]

theorem isFinite_and_units_ofUnits {significand k : Nat} (negative : Bool)
    (hsignificand : significand < 2 * binadeSize) (hlt : significand * 2 ^ k < 2 ^ 2098) :
    (ofUnits negative (significand * 2 ^ k) 1).isFinite = true ∧
      (ofUnits negative (significand * 2 ^ k) 1).units = significand * 2 ^ k := by
  obtain ⟨rank, hrank⟩ := exists_unitsOfRank_eq hsignificand k
  have hfinite : rank < infinityRank := by
    rw [← unitsOfRank_strictMono.lt_iff_lt, hrank, unitsOfRank_infinityRank]
    exact hlt
  have hnearest : nearestRank (significand * 2 ^ k) 1 = rank := by
    rw [← hrank, nearestRank_unitsOfRank hfinite.le]
  constructor
  · simpa [isFinite, ofUnits, hnearest] using hfinite
  · simp only [units, ofUnits, hnearest, hrank]

/-- An integer of 53 bits, counted in steps of at most one, is far below infinity. -/
theorem mul_two_pow_lt {significand k : Nat} (hsignificand : significand < 2 * binadeSize)
    (hk : k ≤ 1074) : significand * 2 ^ k < 2 ^ 2098 := by
  have hsize : 2 * binadeSize = 2 ^ 53 := by norm_num [binadeSize]
  calc significand * 2 ^ k < 2 ^ 53 * 2 ^ k :=
        Nat.mul_lt_mul_of_pos_right (hsize ▸ hsignificand) (by positivity)
    _ = 2 ^ (53 + k) := (pow_add 2 53 k).symm
    _ < 2 ^ 2098 := pow_lt_pow_right₀ (by decide) (by omega)

/-! ## Natural numbers -/

theorem isFinite_and_units_ofNat {n : Nat} (h : n < 2 * binadeSize) :
    (ofNat n).isFinite = true ∧ (ofNat n).units = n * one := by
  rw [ofNat, one_eq]
  exact isFinite_and_units_ofUnits false h (mul_two_pow_lt h le_rfl)

theorem isFinite_ofUInt32 (n : UInt32) : (ofUInt32 n).isFinite = true :=
  (isFinite_and_units_ofNat (Nat.lt_trans n.toNat_lt (by decide))).1

theorem units_ofUInt32 (n : UInt32) : (ofUInt32 n).units = n.toNat * one :=
  (isFinite_and_units_ofNat (Nat.lt_trans n.toNat_lt (by decide))).2

theorem scaled_ofUInt32 (n : UInt32) : (ofUInt32 n).scaled = ↑(n.toNat * one) := by
  have hsign : (ofUInt32 n).negative = false := rfl
  rw [scaled, hsign, units_ofUInt32]
  rfl

theorem toRat_ofUInt32 (n : UInt32) : (ofUInt32 n).toRat = n.toNat := by
  rw [toRat, scaled_ofUInt32]
  push_cast
  exact mul_div_cancel_right₀ _ one_cast_pos.ne'

theorem toUInt32_ofUInt32 (n : UInt32) : (ofUInt32 n).toUInt32 = n := by
  rw [toUInt32, units_ofUInt32, Nat.mul_div_cancel _ one_units_pos, UInt32.ofNat_toNat]

theorem isIntegral_ofUInt32 (n : UInt32) : (ofUInt32 n).isIntegral = true := by
  simp [isIntegral, units_ofUInt32]

theorem not_ofUInt32_less_iff {x : Binary64} {n : UInt32} (hx : x.isFinite = true) :
    (ofUInt32 n).less x = false ↔ x.scaled ≤ ↑(n.toNat * one) := by
  rw [← Bool.not_eq_true, less_iff (isFinite_ofUInt32 n) hx, scaled_ofUInt32, Int.not_lt]

/-! ## Integral doubles -/

theorem one_dvd_scaled_iff {x : Binary64} : (one : Int) ∣ x.scaled ↔ x.isIntegral = true := by
  have hunits : x.isIntegral = true ↔ one ∣ x.units := by
    rw [isIntegral, beq_iff_eq, Nat.dvd_iff_mod_eq_zero]
  cases hs : x.negative <;> simp [scaled, hs, Int.natCast_dvd_natCast, hunits]

theorem floor_of_isIntegral {x : Binary64} (hx : x.isFinite = true) (h : x.isIntegral = true) :
    x.floor = x := by
  rw [floor, if_pos hx, Int.ediv_mul_cancel (one_dvd_scaled_iff.2 h), ofScaled_scaled hx]

theorem sub_same {x : Binary64} (h : x.isFinite = true) : x.sub x = zero false := by
  have hneg : x.neg.isFinite = true := h
  have hsum : x.scaled + x.neg.scaled = 0 := by
    cases hs : x.negative <;> simp [scaled, neg, units, hs]
  have hsign : (x.negative && x.neg.negative) = false := by
    simp [neg]
  simp only [sub, add, isNaN_of_isFinite h, isNaN_of_isFinite hneg, isInfinite_of_isFinite h,
    isInfinite_of_isFinite hneg, hsum, hsign, Bool.or_false, Bool.false_eq_true, if_false]
  decide

end CoefficientForm.Binary64
