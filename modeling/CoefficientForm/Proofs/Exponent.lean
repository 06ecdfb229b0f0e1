-- SUMMARY: The exponents that need no correction.
import CoefficientForm.Exponent.Shown
import CoefficientForm.Proofs.Binary64.Value

/-!
# Shown exponents

An exponent of 32 bits is shown as it is: no step on the way to a label moves it.
-/

namespace CoefficientForm.Exponent

open Binary64

theorem nearestInteger_of_isIntegral {x : Binary64} (hx : x.isFinite = true)
    (h : x.isIntegral = true) : nearestInteger x = x := by
  have hhalf : (zero false).less half = true := by decide
  simp only [nearestInteger, floor_of_isIntegral hx h, sub_same hx, hhalf, if_true]

theorem shown_ofUInt32 (n : UInt32) : shown (ofUInt32 n) = ⟨n, []⟩ := by
  have hx := isFinite_ofUInt32 n
  have hsign : (ofUInt32 n).less (zero false) = false := by
    have hzero : (zero false).scaled = 0 := rfl
    rw [← Bool.not_eq_true, less_iff hx (by decide), scaled_ofUInt32, hzero]
    exact Int.not_lt.2 (Int.natCast_nonneg _)
  have hlargest : (ofUInt32 largest).less (ofUInt32 n) = false := by
    have hle : n.toNat ≤ largest.toNat := Nat.le_of_lt_succ n.toNat_lt
    rw [not_ofUInt32_less_iff hx, scaled_ofUInt32]
    exact_mod_cast Nat.mul_le_mul_right one hle
  simp only [shown, isNaN_of_isFinite hx, isInfinite_of_isFinite hx, sameNumber_self hx,
    nearestInteger_of_isIntegral hx (isIntegral_ofUInt32 n), shownInteger, shownMagnitude, hsign,
    hlargest, toUInt32_ofUInt32, if_true, Bool.false_eq_true, if_false]

end CoefficientForm.Exponent
