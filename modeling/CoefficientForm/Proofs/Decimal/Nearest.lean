-- SUMMARY: The double nearest to a decimal, and the doubles that their shortest decimals give back.
import CoefficientForm.Decimal.Shortest
import CoefficientForm.Proofs.Binary64.Value

/-!
# The double nearest to a decimal

Very large and very small decimals are answered without any power of ten. The answers are those of
the rounding, so that the nearest double is the same for all decimals of one value. A finite double
is the nearest to its shortest decimal.
-/

namespace CoefficientForm.Decimal

open Binary64

/-! ## Powers of ten and ratios -/

theorem tenTo_eq (n : Nat) : tenTo n = 10 ^ n := rfl

theorem two_pow_le_tenTo {k n : Nat} (h : k ≤ 3 * n) : 2 ^ k ≤ tenTo n := by
  calc 2 ^ k ≤ 2 ^ (3 * n) := Nat.pow_le_pow_right (by decide) h
    _ = 8 ^ n := by rw [pow_mul]; norm_num
    _ ≤ 10 ^ n := Nat.pow_le_pow_left (by decide) n

theorem tenTo_pos (n : Nat) : 0 < tenTo n := by
  rw [tenTo_eq]
  positivity

theorem ratio_pos (d : Decimal) : 0 < d.ratio.2 := by
  rw [ratio]
  split
  · exact Nat.one_pos
  · exact tenTo_pos _

theorem ratio_eq_zero_iff (d : Decimal) : d.ratio.1 = 0 ↔ d.coefficient = 0 := by
  rw [ratio]
  split
  · exact Nat.mul_eq_zero.trans (or_iff_left (tenTo_pos _).ne')
  · rfl

/-! ## The nearest double -/

theorem nearestRank_of_large {d : Decimal} (hcoefficient : d.coefficient ≠ 0)
    (h : 400 < d.exponent) : nearestRank (d.ratio.1 * one) d.ratio.2 = infinityRank := by
  rw [ratio, if_pos (by omega)]
  apply nearestRank_eq_infinityRank Nat.one_pos (Nat.le_refl 2098)
  have hpower : 2 ^ 1024 ≤ tenTo d.exponent.toNat := two_pow_le_tenTo (by omega)
  calc 2 ^ 2098 * 1 = 1 * 2 ^ 1024 * 2 ^ 1074 := by rw [Nat.mul_one, Nat.one_mul, ← pow_add]
    _ ≤ d.coefficient * tenTo d.exponent.toNat * one := by
      rw [one_eq]
      exact Nat.mul_le_mul_right _ (Nat.mul_le_mul (Nat.pos_of_ne_zero hcoefficient) hpower)

theorem nearestRank_of_small {d : Decimal}
    (h : d.exponent < -(400 + (Nat.log2 d.coefficient : Int))) :
    nearestRank (d.ratio.1 * one) d.ratio.2 = 0 := by
  rw [ratio, if_neg (by omega)]
  apply nearestRank_eq_zero
  have hpower : 2 ^ (Nat.log2 d.coefficient + 1 + (1074 + 1)) ≤ tenTo (-d.exponent).toNat :=
    two_pow_le_tenTo (by omega)
  calc 2 * (d.coefficient * one) = d.coefficient * 2 ^ (1074 + 1) := by
        rw [one_eq, pow_succ' 2 1074, Nat.mul_left_comm]
    _ < 2 ^ (Nat.log2 d.coefficient + 1) * 2 ^ (1074 + 1) :=
      Nat.mul_lt_mul_of_pos_right Nat.lt_log2_self (by positivity)
    _ = 2 ^ (Nat.log2 d.coefficient + 1 + (1074 + 1)) := (pow_add _ _ _).symm
    _ ≤ tenTo (-d.exponent).toNat := hpower

/-- No decimal is far enough out for its double to be anything but its rounded value. -/
theorem toBinary64_eq_ofUnits (d : Decimal) :
    d.toBinary64 = ofUnits d.negative (d.ratio.1 * one) d.ratio.2 := by
  rw [toBinary64]
  split
  · rename_i hzero
    have hrank : nearestRank (d.ratio.1 * one) d.ratio.2 = 0 := by
      rw [(ratio_eq_zero_iff d).2 hzero, Nat.zero_mul]
      exact nearestRank_eq_zero (ratio_pos d)
    simp only [ofUnits, hrank, zero]
  · rename_i hcoefficient
    split
    · rename_i hlarge
      simp only [ofUnits, nearestRank_of_large hcoefficient hlarge, infinity]
    · split
      · rename_i hsmall
        simp only [ofUnits, nearestRank_of_small hsmall, zero]
      · rfl

theorem toBinary64_congr {d other : Decimal} (hsign : d.negative = other.negative)
    (h : d.ratio.1 * other.ratio.2 = other.ratio.1 * d.ratio.2) :
    d.toBinary64 = other.toBinary64 := by
  have hrank : nearestRank (d.ratio.1 * one) d.ratio.2 =
      nearestRank (other.ratio.1 * one) other.ratio.2 := by
    calc nearestRank (d.ratio.1 * one) d.ratio.2
        = nearestRank (d.ratio.1 * one * other.ratio.2) (d.ratio.2 * other.ratio.2) :=
          (nearestRank_mul_mul _ _ (ratio_pos other)).symm
      _ = nearestRank (other.ratio.1 * one * d.ratio.2) (other.ratio.2 * d.ratio.2) := by
          rw [Nat.mul_right_comm, h, Nat.mul_right_comm, Nat.mul_comm d.ratio.2]
      _ = nearestRank (other.ratio.1 * one) other.ratio.2 :=
          nearestRank_mul_mul _ _ (ratio_pos d)
  rw [toBinary64_eq_ofUnits, toBinary64_eq_ofUnits, hsign]
  exact ofUnits_congr hrank

/-! ## The shortest decimal -/

/-- A count of units is turned into a decimal by as many fives as there are twos in one. -/
theorem toBinary64_of_fives {x : Binary64} {d : Decimal} {k : Nat} (h : x.isFinite = true)
    (hk : 0 < k) (hone : one = 2 ^ k) (hsign : d.negative = x.negative)
    (hcoefficient : d.coefficient = x.units * Nat.pow 5 k) (hexponent : d.exponent = -(k : Int)) :
    d.toBinary64 = x := by
  have hratio : d.ratio = (x.units * Nat.pow 5 k, tenTo k) := by
    rw [ratio, if_neg (by omega), hcoefficient, hexponent, Int.neg_neg, Int.toNat_natCast]
  have htens : Nat.pow 5 k * 2 ^ k = tenTo k := (Nat.mul_pow 5 2 k).symm
  have hrank : nearestRank (x.units * Nat.pow 5 k * one) (tenTo k) = nearestRank x.units 1 := by
    calc nearestRank (x.units * Nat.pow 5 k * one) (tenTo k)
        = nearestRank (x.units * tenTo k) (1 * tenTo k) := by
          rw [hone, Nat.mul_assoc, htens, Nat.one_mul]
      _ = nearestRank x.units 1 := nearestRank_mul_mul _ _ (tenTo_pos k)
  rw [toBinary64_eq_ofUnits, hratio, hsign]
  exact (ofUnits_congr hrank).trans (ofUnits_units h)

theorem toBinary64_exact {x : Binary64} (h : x.isFinite = true) : (exact x).toBinary64 = x :=
  toBinary64_of_fives h (by decide) one_eq rfl rfl rfl

/-- A hit on any grid reads back, and so does the exact decimal where none is hit. -/
theorem toBinary64_search {x : Binary64} (h : x.isFinite = true) (tries : Nat) (power : Int) :
    (search x tries power).toBinary64 = x := by
  induction tries generalizing power with
  | zero => exact toBinary64_exact h
  | succ tries ih =>
      rw [search]
      cases hgrid : onGrid? x power with
      | none => exact ih (power - 1)
      | some d => exact toBinary64_of_onGrid? hgrid

theorem toBinary64_shortest {x : Binary64} (h : x.isFinite = true) :
    (shortest x).toBinary64 = x := by
  unfold shortest
  split
  · rename_i hrank
    obtain ⟨negative, rank, hlt⟩ := x
    obtain rfl : rank = 0 := hrank
    rfl
  · exact toBinary64_search h 20 (topPower x)

theorem toBinary64_shortestEven {x : Binary64} (h : x.isFinite = true) :
    (shortestEven x).toBinary64 = x := by
  simp only [shortestEven]
  split
  · rename_i hbelow
    exact hbelow.2.2
  · exact toBinary64_shortest h

end CoefficientForm.Decimal
