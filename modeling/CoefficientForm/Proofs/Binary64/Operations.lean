-- SUMMARY: Each operation gives the double nearest to its exact result.
import CoefficientForm.Proofs.Binary64.Floor
import CoefficientForm.Proofs.Binary64.Nearest

/-!
# Operations

Products, quotients and sums of finite doubles are rounded once, to the double nearest to the exact
result. Floors are exact. A chain of operations is followed along its exact results, and what a
double holds exactly bounds every result from either side.
-/

namespace CoefficientForm.Binary64

variable {x y : Binary64} {m : ℚ}

/-! ## Bounds -/

theorem magnitude_le_magnitude_iff : x.magnitude ≤ y.magnitude ↔ x.rank ≤ y.rank := by
  rw [← not_lt, magnitude_lt_magnitude_iff, not_lt]

theorem IsNearest.magnitude_le (h : x.IsNearest m) (hy : y.isNaN = false) (hm : m ≤ y.magnitude) :
    x.magnitude ≤ y.magnitude :=
  magnitude_le_magnitude_iff.2 (h.rank_le_rank (isNearest_magnitude hy) hm)

theorem IsNearest.le_magnitude (h : x.IsNearest m) (hy : y.isNaN = false) (hm : y.magnitude ≤ m) :
    y.magnitude ≤ x.magnitude :=
  magnitude_le_magnitude_iff.2 ((isNearest_magnitude hy).rank_le_rank h hm)

theorem isFinite_of_magnitude_le (hy : y.isFinite = true) (h : x.magnitude ≤ y.magnitude) :
    x.isFinite = true :=
  decide_eq_true ((magnitude_le_magnitude_iff.1 h).trans_lt (of_decide_eq_true hy))

theorem isFinite_and_magnitude_ofNat {n : ℕ} (h : n < 2 * binadeSize) :
    (ofNat n).isFinite = true ∧ (ofNat n).magnitude = n := by
  obtain ⟨hfinite, hunits⟩ := isFinite_and_units_ofNat h
  refine ⟨hfinite, ?_⟩
  rw [magnitude, hunits, Nat.cast_mul, mul_div_cancel_right₀ _ one_cast_pos.ne']

/-- Integers of 53 bits are doubles, and so are their halves. -/
theorem exists_magnitude_eq_half {k : ℕ} (h : k < 2 * binadeSize) :
    ∃ x : Binary64, x.isFinite = true ∧ x.magnitude = k / 2 := by
  obtain ⟨hfinite, hunits⟩ :=
    isFinite_and_units_ofUnits false h (mul_two_pow_lt (k := 1073) h (by decide))
  have hone : (one : ℚ) = 2 * 2 ^ 1073 := by
    rw [one_eq, Nat.cast_pow, Nat.cast_two, ← pow_succ']
  refine ⟨_, hfinite, ?_⟩
  rw [magnitude, hunits, Nat.cast_mul, Nat.cast_pow, Nat.cast_two, hone,
    mul_div_mul_right _ _ (by positivity)]

/-! ## Operations -/

theorem isNearest_mul (hx : x.isFinite = true) (hy : y.isFinite = true) :
    (x.mul y).IsNearest (x.magnitude * y.magnitude) := by
  have hnearest := isNearest_ofUnits (x.negative != y.negative) (x.units * y.units) one_units_pos
  rw [Nat.cast_mul, div_div, ← div_mul_div_comm, ← magnitude, ← magnitude] at hnearest
  simpa only [mul, isNaN_of_isFinite hx, isNaN_of_isFinite hy, isInfinite_of_isFinite hx,
    isInfinite_of_isFinite hy, Bool.or_self, Bool.false_eq_true, if_false] using hnearest

theorem negative_mul (hx : x.isFinite = true) (hy : y.isFinite = true) :
    (x.mul y).negative = (x.negative != y.negative) := by
  simp only [mul, isNaN_of_isFinite hx, isNaN_of_isFinite hy, isInfinite_of_isFinite hx,
    isInfinite_of_isFinite hy, Bool.or_self, Bool.false_eq_true, if_false, ofUnits]

theorem isNearest_div (hx : x.isFinite = true) (hy : y.isFinite = true) (hne : y.rank ≠ 0) :
    (x.div y).IsNearest (x.magnitude / y.magnitude) := by
  have hunits : 0 < y.units := Nat.pos_of_ne_zero fun hzero => hne (units_eq_zero_iff.1 hzero)
  have hnearest := isNearest_ofUnits (x.negative != y.negative) (x.units * one) hunits
  have hexact : ((x.units * one : ℕ) / y.units / one : ℚ) = x.magnitude / y.magnitude := by
    rw [magnitude, magnitude, div_div_div_cancel_right₀ one_cast_pos.ne', Nat.cast_mul,
      mul_div_right_comm, mul_div_cancel_right₀ _ one_cast_pos.ne']
  rw [hexact] at hnearest
  simpa only [div, isNaN_of_isFinite hx, isNaN_of_isFinite hy, isInfinite_of_isFinite hx,
    isInfinite_of_isFinite hy, hne, Bool.or_self, Bool.false_eq_true, if_false] using hnearest

theorem isNearest_add (hx : x.isFinite = true) (hy : y.isFinite = true) :
    (x.add y).IsNearest |x.toRat + y.toRat| := by
  have hexact : |x.toRat + y.toRat| = ((x.scaled + y.scaled).natAbs / (1 : ℕ) / one : ℚ) := by
    rw [toRat, toRat, ← add_div, abs_div, abs_of_pos one_cast_pos, Nat.cast_natAbs, Int.cast_abs,
      Int.cast_add, Nat.cast_one, div_one]
  rw [add_of_isFinite hx hy, hexact]
  exact isNearest_ofUnits _ _ Nat.one_pos

theorem negative_add (hx : x.isFinite = true) (hy : y.isFinite = true)
    (hxsign : x.negative = false) (hysign : y.negative = false) : (x.add y).negative = false := by
  have hcount : ¬ x.scaled + y.scaled < 0 := by
    simp only [scaled, hxsign, hysign, Bool.false_eq_true, if_false]
    omega
  simp [add_of_isFinite hx hy, ofScaled, ofUnits, hxsign, hcount]

theorem isFinite_of_add (h : (x.add y).isFinite = true) : x.isFinite = true := by
  rw [add] at h
  apply isFinite_of_not_isNaN
  · intro hnan
    rw [hnan] at h
    cases h
  · intro hinfinite
    rw [if_pos hinfinite] at h
    -- An infinite term leaves itself or NaN.
    have hnot := Nat.not_lt.2 (beq_iff_eq.1 hinfinite).ge
    split at h
    · cases h
    · split at h
      · cases h
      · exact hnot (of_decide_eq_true h)

theorem isFinite_of_floor (h : x.floor.isFinite = true) : x.isFinite = true := by
  by_contra hnot
  rw [floor, if_neg hnot] at h
  exact hnot h

theorem isFinite_floor (hx : x.isFinite = true) : x.floor.isFinite = true :=
  (isFinite_and_scaled_floor hx).1

theorem toRat_floor (hx : x.isFinite = true) : x.floor.toRat = ⌊x.toRat⌋ := by
  rw [toRat_eq_intCast_iff, floor_toRat, (isFinite_and_scaled_floor hx).2]

theorem toRat_of_not_negative (h : x.negative = false) : x.toRat = x.magnitude := by
  rw [toRat_eq_withSign, h]
  rfl

theorem magnitude_floor {n : ℕ} (hx : x.isFinite = true) (hsign : x.negative = false)
    (hlow : n ≤ x.magnitude) (hhigh : x.magnitude < n + 1) : x.floor.magnitude = n := by
  have hfloor : ⌊x.magnitude⌋ = n := Int.floor_eq_iff.2 ⟨hlow, hhigh⟩
  rw [← abs_toRat, toRat_floor hx, toRat_of_not_negative hsign, hfloor, Int.cast_natCast,
    Nat.abs_cast]

theorem magnitude_floor_bounds (hx : x.isFinite = true) (hsign : x.negative = false) :
    x.floor.magnitude ≤ x.magnitude ∧ x.magnitude < x.floor.magnitude + 1 := by
  have hlow := Nat.floor_le x.magnitude_nonneg
  have hhigh := Nat.lt_floor_add_one x.magnitude
  rw [magnitude_floor hx hsign hlow hhigh]
  exact ⟨hlow, hhigh⟩

end CoefficientForm.Binary64
