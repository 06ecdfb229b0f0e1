-- SUMMARY: How a number is shown with two places, and how near that is to the number.
import CoefficientForm.Proofs.Binary64.Operations
import CoefficientForm.Proofs.Binary64.Spacing
import CoefficientForm.Proofs.Decimal.Numeral
import CoefficientForm.Proofs.Decimal.Value
import CoefficientForm.Proofs.Exponent.Digits
import CoefficientForm.Proofs.Exponent.Nearest

/-!
# Two places

What is shown with two places is the numeral of a whole number of hundredths. Up to 2^44 this is the
number of hundredths nearest to the magnitude, a half going up, except just below a half: there the
roundings on the way may already have reached the half, and one hundredth too many is shown. A
number that is a whole number of hundredths itself is shown exactly. Further up this fails as well.
-/

namespace CoefficientForm.Exponent

open Binary64
open Decimal (WrittenPlaces WrittenNumeral)

variable {x : Binary64} {n : ℕ}

/-! ## Counting hundredths -/

theorem magnitude_half : half.magnitude = 1 / 2 := by
  have hunits : one = 2 * half.units := by decide +kernel
  have hne : (half.units : ℚ) ≠ 0 := Nat.cast_ne_zero.2 (by decide +kernel)
  rw [magnitude, hunits, Nat.cast_mul, div_mul_cancel_right₀ hne, Nat.cast_two, one_div]

theorem isFinite_and_magnitude_hundred : hundred.isFinite = true ∧ hundred.magnitude = 100 :=
  isFinite_and_magnitude_ofNat (by decide)

/-- What lies between the halves on either side of an integer is rounded to between them. -/
theorem le_and_le_of_halves {p : Binary64} {m : ℚ} (hp : p.IsNearest m) (hlow : n ≤ m + 1 / 2)
    (hhigh : m + 1 / 2 ≤ n + 1) (hn : 2 * n + 1 < 2 * binadeSize) :
    p.isFinite = true ∧ n ≤ p.magnitude + 1 / 2 ∧ p.magnitude + 1 / 2 ≤ n + 1 := by
  obtain ⟨above, habove, hmagnitude⟩ := exists_magnitude_eq_half hn
  rw [Nat.cast_add, Nat.cast_mul, Nat.cast_two, Nat.cast_one] at hmagnitude
  have hle := hp.magnitude_le (isNaN_of_isFinite habove) (by rw [hmagnitude]; linarith)
  refine ⟨isFinite_of_magnitude_le habove hle, ?_, by linarith⟩
  rcases Nat.eq_zero_or_pos n with rfl | hpos
  · have hnonneg := p.magnitude_nonneg
    rw [Nat.cast_zero]
    linarith
  · obtain ⟨below, hbelow, hmagnitude⟩ :=
      exists_magnitude_eq_half (k := 2 * n - 1) ((Nat.sub_le _ _).trans_lt (Nat.lt_of_succ_lt hn))
    have hcast : ((2 * n - 1 : ℕ) : ℚ) = 2 * n - 1 := by
      rw [Nat.cast_sub (by omega), Nat.cast_mul, Nat.cast_two, Nat.cast_one]
    rw [hcast] at hmagnitude
    have hge := hp.le_magnitude (isNaN_of_isFinite hbelow) (by rw [hmagnitude]; linarith)
    linarith

/-- What lies between two integers is rounded to between them. -/
theorem le_and_le_of_integers {s : Binary64} {m : ℚ} (hs : s.IsNearest m) (hlow : n ≤ m)
    (hhigh : m ≤ n + 1) (hn : n + 1 < 2 * binadeSize) :
    s.isFinite = true ∧ n ≤ s.magnitude ∧ s.magnitude ≤ n + 1 := by
  obtain ⟨hfinite, hmagnitude⟩ := isFinite_and_magnitude_ofNat (Nat.lt_of_succ_lt hn)
  obtain ⟨hnextFinite, hnext⟩ := isFinite_and_magnitude_ofNat hn
  rw [Nat.cast_succ] at hnext
  have hge := hs.le_magnitude (isNaN_of_isFinite hfinite) (hmagnitude.symm ▸ hlow)
  have hle := hs.magnitude_le (isNaN_of_isFinite hnextFinite) (hnext.symm ▸ hhigh)
  rw [hmagnitude] at hge
  exact ⟨isFinite_of_magnitude_le hnextFinite hle, hge, hnext ▸ hle⟩

/-- Up to an integer, rounding moves a number by at most one part in 2^53 of the integer. -/
theorem abs_sub_le_of_integer {p : Binary64} {m : ℚ} (hp : p.IsNearest m) (hm : 0 ≤ m)
    (hle : p.magnitude ≤ n + 1) (hn : n + 1 < 2 * binadeSize) :
    |p.magnitude - m| ≤ (n + 1) / 2 ^ 53 := by
  obtain ⟨hfinite, hmagnitude⟩ := isFinite_and_magnitude_ofNat hn
  rw [Nat.cast_succ] at hmagnitude
  have hrank : binadeSize ≤ (ofNat (n + 1)).rank := by
    apply binadeSize_le_rank
    rw [hmagnitude]
    exact le_add_of_nonneg_left (Nat.cast_nonneg n)
  rw [← hmagnitude] at hle ⊢
  exact hp.abs_sub_le_of_rank_le hm hfinite hrank (magnitude_le_magnitude_iff.1 hle)

theorem isNearest_mul_hundred (hx : x.isFinite = true) :
    (x.abs.mul hundred).IsNearest (100 * x.magnitude) := by
  have hnearest := isNearest_mul (x := x.abs) hx isFinite_and_magnitude_hundred.1
  rwa [isFinite_and_magnitude_hundred.2, mul_comm] at hnearest

theorem isNearest_add_half {p : Binary64} (hp : p.isFinite = true) (hsign : p.negative = false) :
    (p.add half).IsNearest (p.magnitude + 1 / 2) := by
  have hnonneg := p.magnitude_nonneg
  have hnearest := isNearest_add hp isFinite_half
  rwa [toRat_of_not_negative hsign, toRat_of_not_negative (x := half) rfl, magnitude_half,
    abs_of_nonneg (by linarith)] at hnearest

/-- Whether a count of hundredths is the one that a magnitude comes to, a half going up. Just below
a half it may also be the next one. -/
def CountsHundredths (m : ℚ) (count : ℕ) : Prop :=
  count = ⌊100 * m + 1 / 2⌋₊ ∨
    count = ⌊100 * m + 1 / 2⌋₊ + 1 ∧ (count : ℚ) - 1 / 2 - count / 2 ^ 52 ≤ 100 * m

/-- A product rounded to `product`, and its sum with one half rounded to `sum`, can only together
reach the next integer, and only from just below a half. -/
theorem countsHundredths_of_isNearest {product sum : Binary64} {m : ℚ} (hm : 0 ≤ m)
    (hproduct : product.IsNearest (100 * m)) (hsum : sum.IsNearest (product.magnitude + 1 / 2))
    (hn : n = ⌊100 * m + 1 / 2⌋₊) (hle : product.magnitude + 1 / 2 ≤ n + 1)
    (heq : sum.magnitude = n + 1) (hlt : n + 1 < 2 * binadeSize) :
    CountsHundredths m (n + 1) := by
  have hnonneg := product.magnitude_nonneg
  have hfirst := abs_sub_le_of_integer hproduct (by positivity) (by linarith) hlt
  have hsecond := abs_sub_le_of_integer hsum (by positivity) heq.le hlt
  refine .inr ⟨by rw [hn], ?_⟩
  have hproductLow := (abs_le.1 hfirst).2
  have hsumLow := (abs_le.1 hsecond).2
  rw [Nat.cast_succ]
  linarith

theorem exists_magnitude_floor (hx : x.isFinite = true)
    (hlt : 2 * ⌊100 * x.magnitude + 1 / 2⌋₊ + 1 < 2 * binadeSize) :
    ∃ count : ℕ, ((x.abs.mul hundred).add half).floor.isFinite = true ∧
      ((x.abs.mul hundred).add half).floor.magnitude = count ∧
      CountsHundredths x.magnitude count := by
  have hnonneg := x.magnitude_nonneg
  have hlow := Nat.floor_le (show 0 ≤ 100 * x.magnitude + 1 / 2 by linarith)
  have hhigh := Nat.lt_floor_add_one (100 * x.magnitude + 1 / 2)
  obtain ⟨n, hn⟩ : ∃ n, n = ⌊100 * x.magnitude + 1 / 2⌋₊ := ⟨_, rfl⟩
  rw [← hn] at hlow hhigh hlt
  have hproduct := isNearest_mul_hundred hx
  obtain ⟨hproductFinite, hproductLow, hproductHigh⟩ :=
    le_and_le_of_halves hproduct hlow hhigh.le hlt
  have hsign : (x.abs.mul hundred).negative = false :=
    negative_mul (x := x.abs) hx isFinite_and_magnitude_hundred.1
  have hsum := isNearest_add_half hproductFinite hsign
  have hsumSign := negative_add hproductFinite isFinite_half hsign rfl
  have hnext : n + 1 < 2 * binadeSize := by omega
  obtain ⟨hsumFinite, hsumLow, hsumHigh⟩ :=
    le_and_le_of_integers hsum hproductLow hproductHigh hnext
  rcases hsumHigh.lt_or_eq with hless | heq
  · exact ⟨n, isFinite_floor hsumFinite, magnitude_floor hsumFinite hsumSign hsumLow hless,
      .inl hn⟩
  · refine ⟨n + 1, isFinite_floor hsumFinite, magnitude_floor hsumFinite hsumSign ?_ ?_,
      countsHundredths_of_isNearest hnonneg hproduct hsum hn hproductHigh heq hnext⟩ <;>
      rw [heq, Nat.cast_succ]
    linarith

/-- Divided by a hundred and printed with two places, a count is not lost. -/
theorem roundHalfEven_div_hundred {count : Binary64} (hfinite : count.isFinite = true)
    (hn : count.magnitude = n) (hbound : n ≤ 100 * 2 ^ 45) :
    roundHalfEven ((count.div hundred).units * 100) one = n := by
  obtain ⟨hhundred, hmagnitude⟩ := isFinite_and_magnitude_hundred
  have hquotient := isNearest_div hfinite hhundred (by decide +kernel)
  rw [hn, hmagnitude] at hquotient
  obtain ⟨hlargeFinite, hlarge⟩ := isFinite_and_magnitude_ofNat (n := 2 ^ 45) (by decide)
  have hnonneg : (0 : ℚ) ≤ n / 100 := div_nonneg (Nat.cast_nonneg _) (by norm_num)
  have hle : (n / 100 : ℚ) ≤ (ofNat (2 ^ 45)).magnitude := by
    rw [hlarge, div_le_iff₀ (by norm_num), mul_comm]
    exact_mod_cast hbound
  have hnear := hquotient.abs_sub_le_of_rank_le hnonneg hlargeFinite
    (binadeSize_le_rank (by rw [hlarge]; norm_num))
    (magnitude_le_magnitude_iff.1 (hquotient.magnitude_le (isNaN_of_isFinite hlargeFinite) hle))
  apply roundHalfEven_eq_of_abs_sub_lt one_units_pos
  have hscaled : (((count.div hundred).units * 100 : ℕ) / one : ℚ) - n =
      100 * ((count.div hundred).magnitude - n / 100) := by
    rw [magnitude, Nat.cast_mul]
    push_cast
    ring
  rw [hscaled, abs_mul, abs_of_pos (by norm_num)]
  rw [hlarge] at hnear
  norm_num at hnear ⊢
  linarith

/-! ## The text -/

theorem toRat_hundredths (negative : Bool) (count : ℕ) :
    (⟨negative, count, -2⟩ : Decimal).toRat = withSign negative (count / 100) := by
  have hpower : (10 : ℚ) ^ (-2 : ℤ) = 100⁻¹ := by norm_num
  rw [Decimal.toRat, hpower, ← div_eq_mul_inv]

theorem toRat_withTwoPlaces (x : Binary64) :
    (withTwoPlaces ((toHundredths x).copySign x)).toRat =
      withSign x.negative (shownHundredths x / 100) :=
  toRat_hundredths x.negative (shownHundredths x)

/-- The places that are not kept are zeros. -/
theorem toRat_ofDigits_hundredths (negative : Bool) (count : ℕ) :
    (Decimal.ofDigits negative (Nat.toDigits 10 (count / 100)) (keptPlaces count) 0).toRat =
      (⟨negative, count, -2⟩ : Decimal).toRat := by
  obtain ⟨zeros, hzeros⟩ := exists_paddedDigits_eq count
  have hplaces : ¬ (0 : ℤ) ≤ -2 := by decide
  rw [← Decimal.toRat_ofDigits_append_zeros _ _ _ zeros, ← hzeros]
  exact congrArg Decimal.toRat (Decimal.ofDigits_places (d := ⟨negative, count, -2⟩) hplaces)

/-- A number of hundredths is shown as a numeral of it. -/
theorem exists_written_hundredths (negative : Bool) (count : ℕ) :
    ∃ shown, WrittenNumeral shown
        ((if negative = true then ['-'] else []) ++ hundredthsText count) ∧
      shown.toRat = (⟨negative, count, -2⟩ : Decimal).toRat := by
  refine ⟨.ofDigits negative (Nat.toDigits 10 (count / 100)) (keptPlaces count) 0, ?_,
    toRat_ofDigits_hundredths negative count⟩
  have hsign : Json.WrittenSign negative (if negative = true then ['-'] else []) := by
    cases negative with
    | false => exact .absent
    | true => exact .minus
  have hdigits : Json.IsDigits (Nat.toDigits 10 (count / 100) ++ keptPlaces count) := by
    refine ⟨List.append_ne_nil_of_left_ne_nil Nat.toDigits_ne_nil _, ?_⟩
    intro c hc
    exact (List.mem_append.1 hc).elim Text.isDigit_of_mem_toDigits isDigit_of_mem_keptPlaces
  have hpoint : WrittenPlaces (keptPlaces count)
      (if keptPlaces count = [] then [] else '.' :: keptPlaces count) := by
    split
    · rename_i hnil
      rw [hnil]
      exact .absent
    · exact .given
  rw [hundredthsText, ← List.append_nil (Nat.toDigits 10 (count / 100) ++ _)]
  exact .signed hsign (.digits hdigits hpoint .absent)

/-- Zero is shown without a sign, and is zero all the same. -/
theorem exists_written_twoPlaces (hx : x.isFinite = true) :
    ∃ shown, WrittenNumeral shown (twoPlaces x).toList ∧
      shown.toRat = (withTwoPlaces ((toHundredths x).copySign x)).toRat := by
  rw [toList_twoPlaces hx]
  by_cases hzero : shownHundredths x = 0
  · obtain ⟨shown, hshown, hvalue⟩ := exists_written_hundredths false (shownHundredths x)
    rw [if_neg fun h => h.2 hzero]
    refine ⟨shown, hshown, hvalue.trans ?_⟩
    rw [toRat_hundredths, toRat_withTwoPlaces, hzero, Nat.cast_zero, zero_div]
    cases x.negative with
    | false => rfl
    | true => exact neg_zero.symm
  · obtain ⟨shown, hshown, hvalue⟩ := exists_written_hundredths x.negative (shownHundredths x)
    simp only [ne_eq, hzero, not_false_eq_true, and_true]
    exact ⟨shown, hshown, hvalue⟩

/-! ## The number shown -/

theorem countsHundredths_shown (hx : x.isFinite = true) (hbound : x.magnitude ≤ 2 ^ 44) :
    CountsHundredths x.magnitude (shownHundredths x) := by
  have hnearest : ⌊100 * x.magnitude + 1 / 2⌋₊ ≤ 100 * 2 ^ 44 := by
    rw [← Nat.lt_succ_iff, Nat.floor_lt' (Nat.succ_ne_zero _)]
    push_cast
    linarith
  obtain ⟨count, hfinite, hmagnitude, hcounts⟩ :=
    exists_magnitude_floor hx (by simp only [binadeSize]; omega)
  have hcount : count ≤ 100 * 2 ^ 45 := by
    rcases hcounts with heq | ⟨heq, -⟩ <;> omega
  have hquotient : toHundredths x = ((x.abs.mul hundred).add half).floor.div hundred :=
    if_pos hfinite
  have hshown : shownHundredths x = count := by
    rw [shownHundredths, hquotient]
    exact roundHalfEven_div_hundred hfinite hmagnitude hcount
  rw [hshown]
  exact hcounts

theorem CountsHundredths.eq_of_whole {m : ℚ} {count whole : ℕ} (h : CountsHundredths m count)
    (hbound : m ≤ 2 ^ 44) (hwhole : 100 * m = whole) : count = whole := by
  have hfloor : ⌊100 * m + 1 / 2⌋₊ = whole := by
    rw [hwhole, Nat.floor_eq_iff (by positivity)]
    constructor <;> linarith
  rw [CountsHundredths, hfloor, hwhole] at h
  rcases h with heq | ⟨rfl, hbelow⟩
  · exact heq
  · -- So large a whole number of hundredths is out of bounds.
    rw [Nat.cast_succ] at hbelow
    linarith

/-- A finite number is shown as a whole number of hundredths with its sign. Up to 2^44 this is the
number nearest to its magnitude, a half going up, or the next one if the magnitude is so little
below a half that two roundings by one part in 2^53 can reach it. Whole hundredths are then shown
exactly. -/
theorem twoPlaces_hundredths (x : Binary64) (hx : x.isFinite = true) :
    ∃ (shown : Decimal) (count : ℕ), WrittenNumeral shown (twoPlaces x).toList ∧
      shown.toRat = withSign x.negative (count / 100) ∧
      (|x.toRat| ≤ 2 ^ 44 → CountsHundredths |x.toRat| count ∧
        ((∃ k : ℤ, 100 * x.toRat = k) → shown.toRat = x.toRat)) := by
  obtain ⟨shown, hshown, hvalue⟩ := exists_written_twoPlaces hx
  rw [toRat_withTwoPlaces] at hvalue
  refine ⟨shown, shownHundredths x, hshown, hvalue, ?_⟩
  rw [abs_toRat]
  intro hbound
  have hcounts := countsHundredths_shown hx hbound
  refine ⟨hcounts, ?_⟩
  rintro ⟨k, hk⟩
  have hwhole : 100 * x.magnitude = k.natAbs := by
    have hhundred : |(100 : ℚ)| = 100 := abs_of_pos (by norm_num)
    rw [← abs_toRat, Nat.cast_natAbs, Int.cast_abs, ← hk, abs_mul, hhundred]
  rw [hvalue, hcounts.eq_of_whole hbound hwhole, ← hwhole, mul_div_cancel_left₀ _ (by norm_num),
    ← toRat_eq_withSign]

/-- An eighth is half a hundredth above 0.12, and no hundredth. -/
theorem twoPlaces_negative_eighth :
    twoPlaces ⟨true, 0x3FC0000000000000, by decide⟩ = "-0.13" ∧
      ∃ shown, WrittenNumeral shown "-0.13".toList ∧ shown.toRat = -(13 / 100) := by
  have hunits : one = 8 * (⟨true, 0x3FC0000000000000, by decide⟩ : Binary64).units := by
    decide +kernel
  have hne : ((⟨true, 0x3FC0000000000000, by decide⟩ : Binary64).units : ℚ) ≠ 0 :=
    Nat.cast_ne_zero.2 (by decide +kernel)
  have hmagnitude : |(⟨true, 0x3FC0000000000000, by decide⟩ : Binary64).toRat| = 1 / 8 := by
    rw [abs_toRat, magnitude, hunits, Nat.cast_mul, div_mul_cancel_right₀ hne, one_div]
    norm_num
  have htext : twoPlaces ⟨true, 0x3FC0000000000000, by decide⟩ = "-0.13" := by decide +kernel
  obtain ⟨shown, count, hshown, hvalue, hnearest⟩ :=
    twoPlaces_hundredths ⟨true, 0x3FC0000000000000, by decide⟩ (by decide)
  have hcount := (hnearest (by rw [hmagnitude]; norm_num)).1
  have hfloor : ⌊(100 * (1 / 8) + 1 / 2 : ℚ)⌋₊ = 13 := by norm_num
  rw [hmagnitude, CountsHundredths, hfloor] at hcount
  have hthirteen : count = 13 := by
    rcases hcount with heq | ⟨rfl, hbelow⟩
    · exact heq
    · norm_num at hbelow
  rw [htext] at hshown
  rw [hthirteen] at hvalue
  exact ⟨htext, shown, hshown, hvalue⟩

/-- A number below a half hundredth is shown rounded up, and an integer is shown with places. -/
theorem twoPlaces_misrounded :
    (100 * (Decimal.toBinary64 ⟨false, 15, -3⟩).toRat < 1 + 1 / 2 ∧
      twoPlaces (Decimal.toBinary64 ⟨false, 15, -3⟩) = "0.02") ∧
    (ofNat 360287970189641).toRat = 360287970189641 ∧
      twoPlaces (ofNat 360287970189641) = "360287970189640.94" := by
  have hbelow {x : Binary64} (h : 200 * x.units < 3 * one) : 100 * x.magnitude < 1 + 1 / 2 := by
    have hcast : (200 * x.units : ℚ) < 3 * one := by exact_mod_cast h
    rw [magnitude, ← mul_div_assoc, div_lt_iff₀ one_cast_pos]
    linarith
  have hmagnitude := (isFinite_and_magnitude_ofNat (n := 360287970189641)
    (by simp only [binadeSize]; omega)).2
  refine ⟨⟨?_, by decide +kernel⟩, ?_, by decide +kernel⟩
  · rw [toRat_of_not_negative rfl]
    exact hbelow (by decide +kernel)
  · rw [toRat_of_not_negative rfl, hmagnitude]
    rfl

end CoefficientForm.Exponent
