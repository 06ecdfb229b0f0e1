-- SUMMARY: How far an accepted numeral can be from the degree that it is accepted as.
import CoefficientForm.Proofs.Binary64.Spacing
import CoefficientForm.Proofs.Degree.Verdict

/-!
# Written degrees

A numeral is judged as the double nearest to it, so one that is no integer is accepted when it is
near enough to an integer. It is then so near that the degree is its nearest integer, and a numeral
that is an integer, or has only few digits, is accepted as nothing but its exact value.
-/

namespace CoefficientForm.Degree

open Binary64
open Decimal (WrittenNumeral)
open Text (Trims)

/-- Whether the double nearest to a decimal is an integer of 32 bits. The decimal is then not
below zero, unless it is rounded to zero. -/
structure RoundsTo (d : Decimal) (n : UInt32) : Prop where
  nonneg : n = 0 ∨ d.negative = false
  nearest : (ofUInt32 n).IsNearest |d.toRat|

variable {d : Decimal} {n : UInt32}

/-! ## The nearest double -/

theorem roundsTo_of_toBinary64 (h : d.toBinary64.toRat = n.toNat) : RoundsTo d n := by
  have hmagnitude : (ofUInt32 n).magnitude = d.toBinary64.magnitude := by
    rw [magnitude_ofUInt32, ← abs_toRat, h, Nat.abs_cast]
  refine ⟨?_, d.isNearest_toBinary64.of_rank_eq (magnitude_eq_magnitude_iff.1 hmagnitude)⟩
  by_contra hboth
  obtain ⟨hne, hnegative⟩ := not_or.1 hboth
  rw [Bool.not_eq_false, ← d.negative_toBinary64] at hnegative
  rw [toRat_eq_withSign, hnegative, ← hmagnitude, magnitude_ofUInt32, withSign, if_pos rfl] at h
  have hzero : n.toNat = 0 := by
    rw [neg_eq_self] at h
    exact_mod_cast h
  exact hne (UInt32.toNat_inj.1 hzero)

theorem RoundsTo.toBinary64 (h : RoundsTo d n) :
    d.toBinary64.isFinite = true ∧ d.toBinary64.toRat = n.toNat := by
  have hrank := d.isNearest_toBinary64.rank_eq h.nearest
  have hmagnitude : d.toBinary64.magnitude = n.toNat := by
    rw [magnitude_eq_magnitude_iff.2 hrank, magnitude_ofUInt32]
  refine ⟨?_, ?_⟩
  · rw [isFinite, hrank]
    exact isFinite_ofUInt32 n
  · rw [toRat_eq_withSign, d.negative_toBinary64, hmagnitude]
    rcases h.nonneg with rfl | hnonneg
    · exact ite_eq_right_iff.2 fun _ => neg_zero
    · rw [hnonneg]
      rfl

/-! ## Distance to the degree -/

theorem RoundsTo.abs_toRat_of_ne_zero (h : RoundsTo d n) (hn : n ≠ 0) : |d.toRat| = d.toRat := by
  rw [abs_eq_self, Decimal.toRat, h.nonneg.resolve_left hn]
  exact mul_nonneg (Nat.cast_nonneg _) (by positivity)

theorem one_le_magnitude_ofUInt32 (hn : n ≠ 0) : 1 ≤ (ofUInt32 n).magnitude := by
  have hpos : 0 < n.toNat := Nat.pos_of_ne_zero fun hzero => hn (UInt32.toNat_inj.1 hzero)
  rw [magnitude_ofUInt32]
  exact_mod_cast hpos

/-- From one on, the degree is right in all of its 53 bits. -/
theorem RoundsTo.abs_sub_le_of_ne_zero (h : RoundsTo d n) (hn : n ≠ 0) :
    |d.toRat - n.toNat| ≤ n.toNat / 2 ^ 53 := by
  have hnear := h.nearest.abs_sub_le (isFinite_ofUInt32 n) (abs_nonneg _)
    (binadeSize_le_rank (one_le_magnitude_ofUInt32 hn))
  rwa [magnitude_ofUInt32, h.abs_toRat_of_ne_zero hn, abs_sub_comm] at hnear

/-- What is rounded to zero is at most half of the least double. -/
theorem RoundsTo.abs_toRat_le_of_zero (h : RoundsTo d 0) : |d.toRat| ≤ 1 / 2 ^ 1075 := by
  have hhalf := h.nearest.two_mul_le_of_zero (abs_nonneg _) (by decide)
  rw [one_eq, Nat.cast_pow, Nat.cast_two] at hhalf
  rw [pow_succ, ← div_div, le_div_iff₀ two_pos, mul_comm]
  exact hhalf

theorem RoundsTo.abs_sub_le (h : RoundsTo d n) :
    |d.toRat - n.toNat| ≤ max ((n.toNat : ℚ) / 2 ^ 53) (1 / 2 ^ 1075) := by
  by_cases hn : n = 0
  · subst hn
    have hzero : (((0 : UInt32).toNat : ℕ) : ℚ) = 0 := Nat.cast_zero
    rw [hzero, sub_zero]
    exact le_max_of_le_right h.abs_toRat_le_of_zero
  · exact le_max_of_le_left (h.abs_sub_le_of_ne_zero hn)

theorem RoundsTo.abs_sub_lt (h : RoundsTo d n) : |d.toRat - n.toNat| < 1 / 2 := by
  apply h.abs_sub_le.trans_lt
  rw [max_lt_iff]
  constructor
  · have hlt : (n.toNat : ℚ) < 2 ^ 32 := by exact_mod_cast n.toNat_lt
    rw [div_lt_iff₀ (by positivity)]
    linarith
  · exact one_div_lt_one_div_of_lt (by norm_num) (lt_self_pow₀ (by norm_num) (by norm_num))

theorem RoundsTo.round_toRat (h : RoundsTo d n) : round d.toRat = n.toNat := by
  obtain ⟨hlow, hhigh⟩ := abs_lt.1 h.abs_sub_lt
  rw [round_eq, Int.floor_eq_iff, Int.cast_natCast]
  constructor <;> linarith

/-- An integer is not rounded. -/
theorem RoundsTo.eq_of_integer (h : RoundsTo d n) {m : ℤ} (hm : d.toRat = m) :
    d.toRat = n.toNat := by
  rw [hm, ← Int.cast_natCast, ← h.round_toRat, hm, round_intCast]

/-! ## Few digits -/

/-- Below 2^53 no two integers agree in their first 53 bits. -/
theorem eq_of_abs_sub_le {c m : ℕ} (h : |(c : ℚ) - m| ≤ m / 2 ^ 53) (hc : c + 1 < 2 ^ 53) :
    c = m := by
  by_contra hne
  have hapart := one_le_abs_sub_of_ne hne
  have hlarge : (2 ^ 53 : ℚ) ≤ m := by
    have hone := hapart.trans h
    rwa [le_div_iff₀ (by positivity), one_mul] at hone
  have hsmall : (c : ℚ) + 1 < 2 ^ 53 := by exact_mod_cast hc
  have hlow := (abs_le.1 h).1
  linarith

/-- No more than 323 places are needed to be told from zero. -/
theorem RoundsTo.coefficient_eq_zero (h : RoundsTo d 0) {k : ℕ} (hk : k ≤ 323)
    (hmagnitude : |d.toRat| = d.coefficient / 10 ^ k) : d.coefficient = 0 := by
  by_contra hne
  have hpos : (1 : ℚ) ≤ d.coefficient := by exact_mod_cast Nat.one_le_iff_ne_zero.2 hne
  have hpower : (10 : ℚ) ^ k < 2 ^ 1075 := by
    have hnat : 10 ^ 323 < 2 ^ 1075 := by decide +kernel
    exact_mod_cast (pow_le_pow_right₀ (by decide) hk).trans_lt hnat
  have hlow : 1 / (10 : ℚ) ^ k ≤ 1 / 2 ^ 1075 := by
    calc 1 / (10 : ℚ) ^ k ≤ d.coefficient / 10 ^ k := by gcongr
      _ ≤ 1 / 2 ^ 1075 := hmagnitude ▸ h.abs_toRat_le_of_zero
  exact absurd hpower (not_lt.2 ((one_div_le_one_div (by positivity) (by positivity)).1 hlow))

/-- A numeral of few digits is rounded to no integer but itself. -/
theorem RoundsTo.eq_of_few_digits (h : RoundsTo d n) (hcoefficient : d.coefficient + 1 < 2 ^ 53)
    (hexponent : -323 ≤ d.exponent) : d.toRat = n.toNat := by
  rcases le_or_gt 0 d.exponent with hnonneg | hneg
  · obtain ⟨m, hm⟩ := d.exists_toRat_eq_of_exponent_nonneg hnonneg
    exact h.eq_of_integer hm
  obtain ⟨k, hk⟩ : ∃ k : ℕ, d.exponent = -(k : ℤ) := ⟨(-d.exponent).toNat, by omega⟩
  have hmagnitude : |d.toRat| = d.coefficient / 10 ^ k := by
    rw [Decimal.abs_toRat, hk, zpow_neg, zpow_natCast, div_eq_mul_inv]
  by_cases hn : n = 0
  · subst hn
    have hzero := h.coefficient_eq_zero (by omega) hmagnitude
    rw [hzero, Nat.cast_zero, zero_div, abs_eq_zero] at hmagnitude
    rw [hmagnitude]
    rfl
  · have hpos : (0 : ℚ) < 10 ^ k := by positivity
    rw [h.abs_toRat_of_ne_zero hn] at hmagnitude
    have hscaled : |(d.coefficient : ℚ) - (n.toNat * 10 ^ k : ℕ)| ≤
        (n.toNat * 10 ^ k : ℕ) / 2 ^ 53 := by
      have hnear := mul_le_mul_of_nonneg_right (h.abs_sub_le_of_ne_zero hn) hpos.le
      rw [hmagnitude, ← abs_of_pos hpos, ← abs_mul, abs_of_pos hpos, sub_mul,
        div_mul_cancel₀ _ hpos.ne', div_mul_eq_mul_div] at hnear
      push_cast
      exact hnear
    rw [hmagnitude, eq_of_abs_sub_le hscaled hcoefficient, Nat.cast_mul, Nat.cast_pow,
      Nat.cast_ofNat, mul_div_cancel_right₀ _ hpos.ne']

/-! ## Accepted numerals -/

variable {bounds : DegreeBounds} {input : String} {degree : Degree}

theorem ofText_eq_ok_iff (hwritten : WrittenNumeral d (Text.trimmed input).toList) :
    ofText bounds input = .ok degree ↔
      bounds.min ≤ degree.value ∧ degree.value ≤ bounds.max ∧ RoundsTo d degree.value := by
  rw [ofText_eq_iff]
  constructor
  · intro h
    cases h with
    | number hvalue _ hverdict =>
        rw [hvalue.unique (denotes_toBinary64 hwritten)] at hverdict
        cases hverdict with
        | accepted _ hvalue hmin hmax => exact ⟨hmin, hmax, roundsTo_of_toBinary64 hvalue⟩
  · rintro ⟨hmin, hmax, hrounds⟩
    obtain ⟨hfinite, hvalue⟩ := hrounds.toBinary64
    exact .number (denotes_toBinary64 hwritten) (isNaN_of_isFinite hfinite)
      (.accepted hfinite hvalue hmin hmax)

/-- A numeral is accepted exactly when the double nearest to it is a degree within the bounds. It
need not be an integer itself. But the degree is its nearest integer, and is the numeral itself if
that is an integer or has few digits. -/
theorem ofText_of_written (bounds : DegreeBounds) (input : String) (typed : List Char)
    (d : Decimal) (degree : Degree) (htrims : Trims input.toList typed)
    (hwritten : WrittenNumeral d typed) :
    (ofText bounds input = .ok degree ↔
      bounds.min ≤ degree.value ∧ degree.value ≤ bounds.max ∧ RoundsTo d degree.value) ∧
    (ofText bounds input = .ok degree →
      |d.toRat - degree.value.toNat| ≤
        max ((degree.value.toNat : ℚ) / 2 ^ 53) (1 / 2 ^ 1075) ∧
      round d.toRat = degree.value.toNat ∧
      ((∃ n : ℤ, d.toRat = n) ∨ d.coefficient + 1 < 2 ^ 53 ∧ -323 ≤ d.exponent →
        d.toRat = degree.value.toNat)) := by
  rw [← htrims.trim_eq, ← String.toList_ofList (l := Text.trim _)] at hwritten
  have haccepted : ofText bounds input = .ok degree ↔ _ := ofText_eq_ok_iff hwritten
  refine ⟨haccepted, ?_⟩
  intro h
  have hrounds := (haccepted.1 h).2.2
  refine ⟨hrounds.abs_sub_le, hrounds.round_toRat, ?_⟩
  rintro (⟨n, hn⟩ | ⟨hcoefficient, hexponent⟩)
  · exact hrounds.eq_of_integer hn
  · exact hrounds.eq_of_few_digits hcoefficient hexponent

/-- Just below the largest degree of all. -/
theorem ofText_below_maximum :
    ofText ⟨0, 4294967295⟩ " 4294967294.9999999" = .ok ⟨4294967295⟩ ∧
      round (Decimal.toRat ⟨false, 42949672949999999, -7⟩) = 4294967295 := by
  have hwritten : WrittenNumeral ⟨false, 42949672949999999, -7⟩ "4294967294.9999999".toList :=
    Decimal.ofNumeral?_eq_some_iff.1 (by decide)
  have htrims : Trims " 4294967294.9999999".toList "4294967294.9999999".toList :=
    Text.trim_eq_iff.1 (by decide)
  have haccepted : ofText ⟨0, 4294967295⟩ " 4294967294.9999999" = .ok ⟨4294967295⟩ := by
    decide +kernel
  exact ⟨haccepted, ((ofText_of_written ⟨0, 4294967295⟩ _ _ _ _ htrims hwritten).2 haccepted).2.1⟩

/-- A numeral above 3 that is no integer, and one below the minimum of 3, are both accepted. -/
theorem ofText_near_three :
    (Trims "3.0000000000000000001".toList "3.0000000000000000001".toList ∧
      WrittenNumeral ⟨false, 30000000000000000001, -19⟩ "3.0000000000000000001".toList ∧
      ofText ⟨3, 1024⟩ "3.0000000000000000001" = .ok ⟨3⟩ ∧
      ∀ n : ℤ, Decimal.toRat ⟨false, 30000000000000000001, -19⟩ ≠ n) ∧
    (Trims "2.99999999999999999999".toList "2.99999999999999999999".toList ∧
      WrittenNumeral ⟨false, 299999999999999999999, -20⟩ "2.99999999999999999999".toList ∧
      ofText ⟨3, 1024⟩ "2.99999999999999999999" = .ok ⟨3⟩ ∧
      Decimal.toRat ⟨false, 299999999999999999999, -20⟩ < 3) := by
  have hfraction (n : ℤ) : Decimal.toRat ⟨false, 30000000000000000001, -19⟩ ≠ n := by
    intro h
    have hscaled : (30000000000000000001 : ℤ) = n * 10 ^ 19 := by
      rw [Decimal.toRat, withSign, if_neg Bool.false_ne_true, zpow_neg, ← div_eq_mul_inv,
        div_eq_iff (by norm_num)] at h
      exact_mod_cast h
    omega
  have hbelow : Decimal.toRat ⟨false, 299999999999999999999, -20⟩ < 3 := by
    norm_num [Decimal.toRat, withSign]
  refine ⟨⟨Text.trim_eq_iff.1 (by decide), ?_, by decide +kernel, hfraction⟩,
    ⟨Text.trim_eq_iff.1 (by decide), ?_, by decide +kernel, hbelow⟩⟩
  · exact Decimal.ofNumeral?_eq_some_iff.1 (by decide)
  · exact Decimal.ofNumeral?_eq_some_iff.1 (by decide)

end CoefficientForm.Degree
