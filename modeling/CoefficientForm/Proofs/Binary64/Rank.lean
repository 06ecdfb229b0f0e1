-- SUMMARY: Ranks and units: the order of the magnitudes, and the quotients that rounding keeps.
import Mathlib.Tactic
import CoefficientForm.Binary64.Rounding

/-!
# Ranks and units

A rank is read as a significand, which counts steps of a power of two. Along the ranks the units
grow strictly, so that magnitudes are compared by their ranks. Rounding hands back the rank of
every quotient that is the units of one, it depends on nothing but the value of the quotient, and it
never puts two quotients in the other order.
-/

namespace CoefficientForm

/-! ## Rounding a quotient -/

theorem roundHalfEven_mul_mul (num den : Nat) {k : Nat} (hk : 0 < k) :
    roundHalfEven (num * k) (den * k) = roundHalfEven num den := by
  have hrest : 2 * (num * k % (den * k)) = 2 * (num % den) * k := by
    rw [Nat.mul_mod_mul_right, Nat.mul_assoc]
  simp only [roundHalfEven, hrest, Nat.mul_div_mul_right _ _ hk, Nat.mul_lt_mul_right hk]

theorem div_le_roundHalfEven (num den : Nat) : num / den ≤ roundHalfEven num den := by
  simp only [roundHalfEven]
  split
  · exact Nat.le_refl _
  · split <;> omega

theorem roundHalfEven_le (num den : Nat) : roundHalfEven num den ≤ num / den + 1 := by
  simp only [roundHalfEven]
  split
  · exact Nat.le_succ _
  · split <;> omega

theorem roundHalfEven_mono {num other den : Nat} (h : num ≤ other) :
    roundHalfEven num den ≤ roundHalfEven other den := by
  rcases Nat.lt_or_eq_of_le (Nat.div_le_div_right (c := den) h) with hlt | heq
  · calc roundHalfEven num den ≤ num / den + 1 := roundHalfEven_le num den
      _ ≤ other / den := hlt
      _ ≤ roundHalfEven other den := div_le_roundHalfEven other den
  · have hrest : num % den ≤ other % den := by
      have hnum := Nat.div_add_mod num den
      have hother := Nat.div_add_mod other den
      rw [heq] at hnum
      omega
    simp only [roundHalfEven, heq]
    split_ifs <;> omega

namespace Binary64

/-! ## Units along the ranks -/

/-- A significand counts steps of `2 ^ shift`. One that is twice the size of a binade is the first
of the next binade, where the steps are twice as wide. -/
theorem unitsOfRank_add {shift significand : Nat} (hlow : shift = 0 ∨ binadeSize ≤ significand)
    (hhigh : significand ≤ 2 * binadeSize) :
    unitsOfRank (shift * binadeSize + significand) = significand * 2 ^ shift := by
  by_cases hsub : shift * binadeSize + significand < binadeSize
  · have hshift : shift = 0 := by
      simp only [binadeSize] at hlow hsub
      omega
    subst hshift
    have hrank : 0 * binadeSize + significand = significand := by omega
    rw [hrank] at hsub ⊢
    rw [unitsOfRank, if_pos hsub, pow_zero, Nat.mul_one]
  rw [unitsOfRank, if_neg hsub]
  by_cases hnext : significand = 2 * binadeSize
  · have hdiv : (shift * binadeSize + significand) / binadeSize - 1 = shift + 1 := by
      simp only [binadeSize] at hnext ⊢
      omega
    have hmod : (shift * binadeSize + significand) % binadeSize = 0 := by
      simp only [binadeSize] at hnext ⊢
      omega
    rw [hdiv, hmod, Nat.shiftLeft_eq, hnext]
    ring
  · have hdiv : (shift * binadeSize + significand) / binadeSize - 1 = shift := by
      simp only [binadeSize] at hlow hhigh hsub hnext ⊢
      omega
    have hsum : binadeSize + (shift * binadeSize + significand) % binadeSize = significand := by
      simp only [binadeSize] at hlow hhigh hsub hnext ⊢
      omega
    rw [hdiv, hsum, Nat.shiftLeft_eq]

theorem exists_shift_significand (rank : Nat) :
    ∃ shift significand, rank = shift * binadeSize + significand ∧
      (shift = 0 ∨ binadeSize ≤ significand) ∧ significand < 2 * binadeSize := by
  refine ⟨rank / binadeSize - 1, rank - (rank / binadeSize - 1) * binadeSize, ?_, ?_, ?_⟩ <;>
    simp only [binadeSize] <;> omega

theorem unitsOfRank_strictMono : StrictMono unitsOfRank := by
  apply strictMono_nat_of_lt_succ
  intro rank
  obtain ⟨shift, significand, rfl, hlow, hhigh⟩ := exists_shift_significand rank
  have hnext : shift = 0 ∨ binadeSize ≤ significand + 1 := hlow.imp_right Nat.le_succ_of_le
  rw [Nat.add_assoc, unitsOfRank_add hlow hhigh.le, unitsOfRank_add hnext hhigh]
  exact Nat.mul_lt_mul_of_pos_right (Nat.lt_succ_self _) (by positivity)

theorem unitsOfRank_infinityRank : unitsOfRank infinityRank = 2 ^ 2098 := by
  have hrank : infinityRank = 2046 * binadeSize + binadeSize := by decide
  have hsize : binadeSize = 2 ^ 52 := by norm_num [binadeSize]
  rw [hrank, unitsOfRank_add (.inr (Nat.le_refl _)) (by simp [binadeSize]), hsize, ← pow_add]

/-- Every count of units with at most 53 significant bits belongs to a rank. -/
theorem exists_unitsOfRank_eq {significand : Nat} (h : significand < 2 * binadeSize) (k : Nat) :
    ∃ rank, unitsOfRank rank = significand * 2 ^ k := by
  induction k generalizing significand with
  | zero => exact ⟨0 * binadeSize + significand, unitsOfRank_add (.inl rfl) h.le⟩
  | succ k ih =>
      by_cases hlow : binadeSize ≤ significand
      · exact ⟨(k + 1) * binadeSize + significand, unitsOfRank_add (.inr hlow) h.le⟩
      · obtain ⟨rank, hrank⟩ := @ih (2 * significand) (by omega)
        refine ⟨rank, ?_⟩
        rw [hrank]
        ring

/-! ## The nearest rank -/

theorem nearestRank_mul_mul (num den : Nat) {k : Nat} (hk : 0 < k) :
    nearestRank (num * k) (den * k) = nearestRank num den := by
  have hshift : ∀ shift, (den * k) <<< shift = (den <<< shift) * k := by
    intro shift
    simp only [Nat.shiftLeft_eq]
    ring
  simp only [nearestRank, excessBits, Nat.mul_div_mul_right _ _ hk, hshift,
    roundHalfEven_mul_mul _ _ hk]

theorem excessBits_mul_two_pow {shift significand : Nat}
    (hlow : shift = 0 ∨ binadeSize ≤ significand) (hhigh : significand < 2 * binadeSize) :
    excessBits (significand * 2 ^ shift) 1 = shift := by
  rw [excessBits, Nat.div_one]
  rcases hlow with rfl | hlow
  · by_cases hzero : significand = 0
    · simp [hzero]
    · have hlog : Nat.log2 significand < 53 := by
        rw [Nat.log2_lt hzero]
        simpa [binadeSize] using hhigh
      rw [pow_zero, Nat.mul_one]
      omega
  · have hlog : Nat.log2 (significand * 2 ^ shift) = shift + 52 := by
      rw [Nat.log2_eq_iff (by simp [binadeSize] at hlow ⊢; omega)]
      constructor
      · calc 2 ^ (shift + 52) = binadeSize * 2 ^ shift := by simp [binadeSize, pow_add, mul_comm]
          _ ≤ significand * 2 ^ shift := Nat.mul_le_mul_right _ hlow
      · calc significand * 2 ^ shift < 2 * binadeSize * 2 ^ shift :=
              Nat.mul_lt_mul_of_pos_right hhigh (by positivity)
          _ = 2 ^ (shift + 52 + 1) := by simp only [binadeSize, pow_add]; ring
    omega

/-- Rounding keeps what a double can hold. -/
theorem nearestRank_unitsOfRank {rank : Nat} (h : rank ≤ infinityRank) :
    nearestRank (unitsOfRank rank) 1 = rank := by
  obtain ⟨shift, significand, rfl, hlow, hhigh⟩ := exists_shift_significand rank
  have hround : roundHalfEven (significand * 2 ^ shift) (1 <<< shift) = significand := by
    rw [Nat.shiftLeft_eq, Nat.one_mul, roundHalfEven_mul _ (by positivity)]
  rw [unitsOfRank_add hlow hhigh.le, nearestRank, excessBits_mul_two_pow hlow hhigh, hround]
  exact Nat.min_eq_left h

/-- A quotient that is cut has all of its 53 bits. -/
theorem binadeSize_le_roundHalfEven {num den : Nat} (h : 0 < excessBits num den) :
    binadeSize ≤ roundHalfEven num (den <<< excessBits num den) := by
  have hpos : num / den ≠ 0 := by
    intro hzero
    simp [excessBits, hzero] at h
  refine Nat.le_trans ?_ (div_le_roundHalfEven _ _)
  rw [Nat.shiftLeft_eq, ← Nat.div_div_eq_div_mul, Nat.le_div_iff_mul_le (by positivity)]
  have hsize : binadeSize = 2 ^ 52 := by norm_num [binadeSize]
  calc binadeSize * 2 ^ excessBits num den = 2 ^ Nat.log2 (num / den) := by
          rw [hsize, ← pow_add]
          congr 1
          unfold excessBits at h ⊢
          omega
    _ ≤ num / den := Nat.log2_self_le hpos

/-- Rounding up takes a quotient at most to the first significand of the next binade. -/
theorem roundHalfEven_le_two_mul_binadeSize (num den : Nat) :
    roundHalfEven num (den <<< excessBits num den) ≤ 2 * binadeSize := by
  refine Nat.le_trans (roundHalfEven_le _ _) (Nat.succ_le_of_lt ?_)
  have hsize : 2 * binadeSize = 2 ^ 53 := by norm_num [binadeSize]
  rw [Nat.shiftLeft_eq, ← Nat.div_div_eq_div_mul, Nat.div_lt_iff_lt_mul (by positivity), hsize,
    ← pow_add]
  calc num / den < 2 ^ (Nat.log2 (num / den) + 1) := Nat.lt_log2_self
    _ ≤ 2 ^ (53 + excessBits num den) := by
      apply Nat.pow_le_pow_right (by decide)
      unfold excessBits
      omega

/-- A larger quotient is not rounded to a smaller magnitude. -/
theorem nearestRank_mono {num other : Nat} (den : Nat) (h : num ≤ other) :
    nearestRank num den ≤ nearestRank other den := by
  have hshift : excessBits num den ≤ excessBits other den := by
    rw [excessBits, excessBits, Nat.log2_eq_log_two, Nat.log2_eq_log_two]
    exact Nat.sub_le_sub_right (Nat.log_mono_right (Nat.div_le_div_right h)) 52
  refine min_le_min_right _ ?_
  rcases Nat.lt_or_eq_of_le hshift with hlt | heq
  · calc excessBits num den * binadeSize + roundHalfEven num (den <<< excessBits num den)
        ≤ excessBits num den * binadeSize + 2 * binadeSize :=
          Nat.add_le_add_left (roundHalfEven_le_two_mul_binadeSize num den) _
      _ = (excessBits num den + 1) * binadeSize + binadeSize := by ring
      _ ≤ excessBits other den * binadeSize +
          roundHalfEven other (den <<< excessBits other den) :=
        Nat.add_le_add (Nat.mul_le_mul_right _ hlt)
          (binadeSize_le_roundHalfEven (Nat.zero_lt_of_lt hlt))
  · rw [heq]
    exact Nat.add_le_add_left (roundHalfEven_mono h) _

theorem nearestRank_eq_zero {num den : Nat} (h : 2 * num < den) : nearestRank num den = 0 := by
  have hdiv : num / den = 0 := Nat.div_eq_of_lt (by omega)
  have hmod : num % den = num := Nat.mod_eq_of_lt (by omega)
  have hround : roundHalfEven num den = 0 := by
    simp only [roundHalfEven, hdiv, hmod, if_pos h]
  have hexcess : excessBits num den = 0 := by
    simp [excessBits, hdiv]
  simp [nearestRank, hexcess, hround]

theorem nearestRank_eq_infinityRank {num den k : Nat} (hden : 0 < den) (hk : 2098 ≤ k)
    (h : 2 ^ k * den ≤ num) : nearestRank num den = infinityRank := by
  have hquot : 2 ^ k ≤ num / den := (Nat.le_div_iff_mul_le hden).2 h
  have hpos : num / den ≠ 0 := (Nat.lt_of_lt_of_le (by positivity) hquot).ne'
  have hlog : k ≤ Nat.log2 (num / den) := (Nat.le_log2 hpos).2 hquot
  have hexcess : 2046 ≤ excessBits num den := by
    unfold excessBits
    omega
  have hsignificand : binadeSize ≤ roundHalfEven num (den <<< excessBits num den) :=
    binadeSize_le_roundHalfEven (by omega)
  apply Nat.min_eq_right
  calc infinityRank = 2046 * binadeSize + binadeSize := by decide
    _ ≤ excessBits num den * binadeSize + roundHalfEven num (den <<< excessBits num den) :=
      Nat.add_le_add (Nat.mul_le_mul_right _ hexcess) hsignificand

end Binary64

end CoefficientForm
