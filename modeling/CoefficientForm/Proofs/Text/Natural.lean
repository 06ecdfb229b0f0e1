-- SUMMARY: A natural number can be read back from its decimal digits.
import Mathlib.Tactic
import CoefficientForm.Text.Natural

/-!
# Natural numbers as text

The decimal digits of a number are digits, they tell it from every other number, and reading them
gives the number back.
-/

namespace CoefficientForm.Text

theorem isDigit_of_mem_toDigits {n : Nat} {c : Char} (h : c ∈ Nat.toDigits 10 n) :
    c.isDigit = true :=
  Nat.isDigit_of_mem_toDigits (by decide) (by decide) h

theorem toDigits_injective : Function.Injective (Nat.toDigits 10) := by
  intro m n h
  calc m = Nat.ofDigitChars 10 (Nat.toDigits 10 m) 0 := Nat.ofDigitChars_ten_toDigits.symm
    _ = Nat.ofDigitChars 10 (Nat.toDigits 10 n) 0 := by rw [h]
    _ = n := Nat.ofDigitChars_ten_toDigits

theorem ofDigits?_toDigits (n : UInt32) : ofDigits? (Nat.toDigits 10 n.toNat) = some n := by
  have hdigits : Nat.toDigits 10 n.toNat ≠ [] ∧ (Nat.toDigits 10 n.toNat).all Char.isDigit := by
    refine ⟨Nat.toDigits_ne_nil, ?_⟩
    rw [List.all_eq_true]
    intro c hc
    exact isDigit_of_mem_toDigits hc
  rw [ofDigits?, if_pos hdigits, Nat.ofDigitChars_ten_toDigits]
  simp only [if_pos n.toNat_lt, UInt32.ofNat_toNat]

/-- Digits start with no sign. -/
theorem ofNatural?_toDigits (n : UInt32) : ofNatural? (Nat.toDigits 10 n.toNat) = some n := by
  unfold ofNatural?
  split
  · rename_i hplus
    have hdigit : Char.isDigit '+' = true := by
      apply @isDigit_of_mem_toDigits n.toNat
      rw [hplus]
      exact List.mem_cons_self
    exact absurd hdigit (by decide)
  · exact ofDigits?_toDigits n

end CoefficientForm.Text
