-- SUMMARY: The exponents of a degree.
import CoefficientForm.Degree
import Mathlib.Tactic

/-!
# Exponents of a degree

The exponents of a degree are all the numbers up to it, each once, the highest first.
-/

namespace CoefficientForm.Degree

theorem termCount_le (degree : Degree) : degree.termCount ≤ UInt32.size :=
  Nat.succ_le_of_lt degree.value.toNat_lt

theorem toNat_lt_termCount_iff {degree : Degree} {exponent : UInt32} :
    exponent.toNat < degree.termCount ↔ exponent ≤ degree.value := by
  rw [termCount, Nat.lt_succ_iff, UInt32.le_iff_toNat_le]

theorem toNat_ofNat_of_lt_termCount {degree : Degree} {n : Nat} (h : n < degree.termCount) :
    (UInt32.ofNat n).toNat = n :=
  UInt32.toNat_ofNat_of_lt' (Nat.lt_of_lt_of_le h degree.termCount_le)

theorem map_toNat_exponents (degree : Degree) :
    degree.exponents.map UInt32.toNat = (List.range degree.termCount).reverse := by
  rw [exponents, List.map_map]
  have hnat : ∀ n ∈ (List.range degree.termCount).reverse, (UInt32.toNat ∘ UInt32.ofNat) n = n := by
    intro n hn
    rw [List.mem_reverse, List.mem_range] at hn
    exact toNat_ofNat_of_lt_termCount hn
  rw [List.map_congr_left hnat, List.map_id']

theorem mem_exponents_iff {degree : Degree} {exponent : UInt32} :
    exponent ∈ degree.exponents ↔ exponent ≤ degree.value := by
  have hinjective : Function.Injective UInt32.toNat := fun _ _ => UInt32.toNat_inj.1
  rw [← toNat_lt_termCount_iff, ← List.mem_map_of_injective hinjective, map_toNat_exponents,
    List.mem_reverse, List.mem_range]

theorem getElem?_exponents (degree : Degree) {index : Nat} (h : index < degree.termCount) :
    degree.exponents[index]? = some (UInt32.ofNat (degree.value.toNat - index)) := by
  have hrange : index < (List.range degree.termCount).length := by
    rw [List.length_range]
    exact h
  rw [exponents, List.getElem?_map, List.getElem?_reverse hrange, List.length_range, termCount,
    Nat.add_sub_cancel, List.getElem?_range (by omega), Option.map_some]

/-- The highest exponent comes first. -/
theorem pairwise_exponents (degree : Degree) : degree.exponents.Pairwise (· > ·) := by
  have hsorted : (degree.exponents.map UInt32.toNat).Pairwise (· > ·) := by
    rw [map_toNat_exponents, List.pairwise_reverse]
    exact List.pairwise_lt_range
  exact (List.pairwise_map.1 hsorted).imp UInt32.lt_iff_toNat_lt.2

end CoefficientForm.Degree
