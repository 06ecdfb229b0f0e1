-- SUMMARY: The messages about a corrected exponent give integers exactly.
import CoefficientForm.Proofs.Exponent.Corrections
import CoefficientForm.Proofs.Exponent.TwoPlaces

/-!
# Messages

As long as nothing is replaced, a rounding and a flip are all there is to report. Both lead to
integers of at most 32 bits, which two places show in their own digits. So the messages name the
nearest integer, and the exponent that is shown, exactly.
-/

namespace CoefficientForm.Exponent

open Binary64

variable {x y : Binary64} {count : ℕ} {n : ℤ}

/-! ## The whole part -/

/-- Rounded to a hundredth, a magnitude does not leave the integers on either side of it. -/
theorem CountsHundredths.whole_bounds {m : ℚ} (h : CountsHundredths m count) (hm : 0 ≤ m)
    (hbound : m ≤ 2 ^ 44) : 100 * ⌊m⌋₊ ≤ count ∧ count ≤ 100 * (⌊m⌋₊ + 1) := by
  have hlow := Nat.floor_le hm
  have hhigh := Nat.lt_floor_add_one m
  have hfloor : 100 * ⌊m⌋₊ ≤ ⌊100 * m + 1 / 2⌋₊ := by
    apply Nat.le_floor
    push_cast
    linarith
  have hnext : ⌊100 * m + 1 / 2⌋₊ ≤ 100 * (⌊m⌋₊ + 1) := by
    rw [← Nat.lt_succ_iff, Nat.floor_lt (by positivity)]
    push_cast
    linarith
  rcases h with rfl | ⟨heq, hbelow⟩
  · exact ⟨hfloor, hnext⟩
  · refine ⟨by omega, ?_⟩
    -- The next count is reached from less than one hundredth below it.
    by_contra hmore
    have hcount : (count : ℚ) = 100 * (⌊m⌋₊ + 1) + 1 := by
      have hsucc : count = 100 * (⌊m⌋₊ + 1) + 1 := by omega
      rw [hsucc]
      push_cast
      ring
    rw [hcount] at hbelow
    linarith

theorem whole_shown (hx : x.isFinite = true) (hbound : |x.toRat| ≤ 2 ^ 44) :
    shownHundredths x / 100 = ⌊|x.toRat|⌋₊ ∨ shownHundredths x = 100 * (⌊|x.toRat|⌋₊ + 1) := by
  rw [abs_toRat] at hbound ⊢
  have hbounds :=
    (countsHundredths_shown hx hbound).whole_bounds x.magnitude_nonneg hbound
  omega

/-! ## Integers -/

theorem toList_toString_int (n : ℤ) :
    (toString n).toList = (if n < 0 then ['-'] else []) ++ Nat.toDigits 10 n.natAbs := by
  cases n with
  | ofNat k => exact Nat.toList_repr
  | negSucc k =>
      rw [if_pos (Int.negSucc_lt_zero k), Int.natAbs_negSucc, ← Nat.toList_repr]
      exact String.toList_append

theorem shownHundredths_of_integer (hx : x.isFinite = true) (hn : x.toRat = n)
    (hbound : |x.toRat| ≤ 2 ^ 44) : shownHundredths x = 100 * n.natAbs := by
  rw [abs_toRat] at hbound
  apply (countsHundredths_shown hx hbound).eq_of_whole hbound
  rw [← abs_toRat, hn, Nat.cast_mul, Nat.cast_natAbs, Int.cast_abs]
  rfl

theorem negative_and_ne_zero_iff (hn : x.toRat = n) : x.negative = true ∧ n ≠ 0 ↔ n < 0 := by
  have hnonneg := x.magnitude_nonneg
  rw [toRat_eq_withSign, withSign] at hn
  split at hn
  · rename_i hnegative
    have hle : (n : ℚ) ≤ 0 := by linarith
    rw [and_iff_right hnegative]
    exact (Int.cast_nonpos.1 hle).lt_iff_ne.symm
  · rename_i hnegative
    have hge : (0 : ℚ) ≤ n := hn ▸ hnonneg
    rw [iff_false_left fun h => hnegative h.1]
    exact not_lt.2 (Int.cast_nonneg_iff.1 hge)

/-- An integer is shown in its decimal digits, with a minus only if it is negative. -/
theorem twoPlaces_of_integer (hx : x.isFinite = true) (hn : x.toRat = n)
    (hbound : |x.toRat| ≤ 2 ^ 44) : twoPlaces x = toString n := by
  apply String.toList_injective
  have hsign : x.negative = true ∧ 100 * n.natAbs ≠ 0 ↔ n < 0 := by
    rw [← negative_and_ne_zero_iff hn]
    exact and_congr_right' (by omega)
  rw [toList_twoPlaces hx, shownHundredths_of_integer hx hn hbound, hundredthsText_hundred_mul,
    toList_toString_int]
  simp only [hsign]

/-! ## What is reported when nothing is replaced -/

theorem getLast?_kindsFor_eq_replaced_iff (fractional negative large : Bool) :
    (kindsFor fractional negative large).getLast? = some .replaced ↔ large = true := by
  revert fractional negative large
  decide

theorem natAbs_le_of_not_replaced (hx : x.isFinite = true)
    (h : ((shown x).corrections.map Correction.kind).getLast? ≠ some .replaced) :
    ⌊x.toRat + 1 / 2⌋.natAbs ≤ 2 ^ 32 - 1 := by
  rwa [kinds_shown hx, Ne, getLast?_kindsFor_eq_replaced_iff, decide_eq_true_eq, not_lt] at h

theorem corrections_shownMagnitude {magnitude : ℕ} (hy : y.isFinite = true)
    (h : y.scaled = magnitude * one) (hle : magnitude ≤ 2 ^ 32 - 1) (before : List Correction) :
    (shownMagnitude y before).corrections = before := by
  rw [shownMagnitude, if_neg]
  rwa [largest_less_iff hy h, not_lt]

theorem corrections_shownInteger (hy : y.isFinite = true) (h : y.scaled = n * one)
    (hle : n.natAbs ≤ 2 ^ 32 - 1) (before : List Correction) :
    (shownInteger y before).corrections =
      before ++ if n < 0 then [Correction.flipped y y.abs] else [] := by
  simp only [shownInteger, less_zero_iff hy h]
  split
  · exact corrections_shownMagnitude (y := y.abs) hy (scaled_abs h) hle _
  · rename_i hnonneg
    rw [List.append_nil]
    exact corrections_shownMagnitude hy (scaled_of_nonneg h (not_lt.1 hnonneg)) hle _

theorem corrections_shown (hx : x.isFinite = true) (hle : ⌊x.toRat + 1 / 2⌋.natAbs ≤ 2 ^ 32 - 1) :
    (shown x).corrections =
      (if x.isIntegral then [] else [Correction.rounded x (start x)]) ++
        if ⌊x.toRat + 1 / 2⌋ < 0 then [Correction.flipped (start x) (start x).abs] else [] := by
  obtain ⟨hstart, hscaled⟩ := isFinite_and_scaled_start hx
  rw [shown_of_isFinite hx]
  exact corrections_shownInteger hstart hscaled hle _

theorem eq_of_mem_corrections_shown {correction : Correction} (hx : x.isFinite = true)
    (hle : ⌊x.toRat + 1 / 2⌋.natAbs ≤ 2 ^ 32 - 1) (h : correction ∈ (shown x).corrections) :
    correction = .rounded x (start x) ∨
      ⌊x.toRat + 1 / 2⌋ < 0 ∧ correction = .flipped (start x) (start x).abs := by
  rw [corrections_shown hx hle, List.mem_append, List.mem_ite_nil_left, List.mem_ite_nil_right,
    List.mem_singleton, List.mem_singleton] at h
  exact h.imp_left And.right

theorem value_shown (hx : x.isFinite = true) (hle : ⌊x.toRat + 1 / 2⌋.natAbs ≤ 2 ^ 32 - 1) :
    (shown x).value.toNat = ⌊x.toRat + 1 / 2⌋.natAbs := by
  obtain ⟨hstart, hscaled⟩ := isFinite_and_scaled_start hx
  rw [shown_of_isFinite hx, value_shownInteger hstart hscaled, Nat.min_eq_left hle]

/-! ## Integers in messages -/

theorem twoPlaces_of_scaled (hy : y.isFinite = true) (h : y.scaled = n * one)
    (hle : n.natAbs ≤ 2 ^ 32 - 1) : twoPlaces y = toString n := by
  have hn : y.toRat = n := toRat_eq_intCast_iff.2 h
  apply twoPlaces_of_integer hy hn
  rw [hn, ← Int.cast_abs, ← Nat.cast_natAbs]
  exact_mod_cast hle.trans (by decide)

theorem twoPlaces_abs_of_scaled (hy : y.isFinite = true) (h : y.scaled = n * one)
    (hle : n.natAbs ≤ 2 ^ 32 - 1) : twoPlaces y.abs = toString n.natAbs :=
  twoPlaces_of_scaled (y := y.abs) hy (scaled_abs h) hle

theorem toString_of_neg (h : n < 0) : toString n = "-" ++ toString n.natAbs := by
  cases n with
  | ofNat k => exact absurd h (not_lt.2 (Int.natCast_nonneg k))
  | negSucc k => rfl

theorem message_rounded {before after : Binary64} (hx : x.isFinite = true)
    (hle : ⌊x.toRat + 1 / 2⌋.natAbs ≤ 2 ^ 32 - 1)
    (h : .rounded before after ∈ (shown x).corrections) :
    (Correction.rounded before after).message =
      "exponent '" ++ twoPlaces x ++ "' was rounded to '" ++ toString ⌊x.toRat + 1 / 2⌋ ++ "'" := by
  obtain ⟨hstart, hscaled⟩ := isFinite_and_scaled_start hx
  rcases eq_of_mem_corrections_shown hx hle h with hrounded | ⟨-, hflipped⟩
  · obtain ⟨rfl, rfl⟩ := Correction.rounded.inj hrounded
    have hmessage : (Correction.rounded before (start before)).message =
        "exponent '" ++ twoPlaces before ++ "' was rounded to '" ++ twoPlaces (start before) ++
          "'" := rfl
    rw [hmessage, twoPlaces_of_scaled hstart hscaled hle]
  · cases hflipped

theorem message_flipped {before after : Binary64} (hx : x.isFinite = true)
    (hle : ⌊x.toRat + 1 / 2⌋.natAbs ≤ 2 ^ 32 - 1)
    (h : .flipped before after ∈ (shown x).corrections) :
    (Correction.flipped before after).message =
      "exponent '-" ++ toString (shown x).value.toNat ++ "' was flipped to '" ++
        toString (shown x).value.toNat ++ "'" := by
  obtain ⟨hstart, hscaled⟩ := isFinite_and_scaled_start hx
  rcases eq_of_mem_corrections_shown hx hle h with hrounded | ⟨hneg, hflipped⟩
  · cases hrounded
  · obtain ⟨rfl, rfl⟩ := Correction.flipped.inj hflipped
    have hmessage : (Correction.flipped (start x) (start x).abs).message =
        "exponent '" ++ twoPlaces (start x) ++ "' was flipped to '" ++ twoPlaces (start x).abs ++
          "'" := rfl
    rw [hmessage, twoPlaces_of_scaled hstart hscaled hle, toString_of_neg hneg,
      twoPlaces_abs_of_scaled hstart hscaled hle, value_shown hx hle]
    rfl

/-! ## All messages -/

/-- A finite number is shown as its count of hundredths: every digit of the whole part, the places
without the zeros at their end, and a sign unless all is zero. Up to 2^44 the whole part is that of
the magnitude, or the next integer without any places, and an integer is shown in its own digits.
So unless a replacement is reported at the end, the message about a rounding names the nearest
integer, and the message about a flip the exponent that is shown. -/
theorem messages_exact (x : Binary64) (hx : x.isFinite = true) :
    let count := shownHundredths x
    let nearest := ⌊x.toRat + 1 / 2⌋
    let exponent := (shown x).value.toNat
    (((shown x).corrections.map Correction.kind).getLast? ≠ some .replaced →
      (∀ before after, .rounded before after ∈ (shown x).corrections →
        (Correction.rounded before after).message =
          s!"exponent '{twoPlaces x}' was rounded to '{nearest}'") ∧
      (∀ before after, .flipped before after ∈ (shown x).corrections →
        (Correction.flipped before after).message =
          s!"exponent '-{exponent}' was flipped to '{exponent}'")) ∧
    (∃ places zeros, Decimal.paddedDigits 2 (count % 100) = places ++ List.replicate zeros '0' ∧
      (twoPlaces x).toList =
        (if x.negative = true ∧ count ≠ 0 then ['-'] else []) ++ Nat.toDigits 10 (count / 100) ++
          if places = [] then [] else '.' :: places) ∧
    (|x.toRat| ≤ 2 ^ 44 →
      (count / 100 = ⌊|x.toRat|⌋₊ ∨ count = 100 * (⌊|x.toRat|⌋₊ + 1)) ∧
      ∀ n : ℤ, x.toRat = n → twoPlaces x = toString n) := by
  intro count nearest exponent
  refine ⟨?_, ?_, ?_⟩
  · intro hkept
    have hle := natAbs_le_of_not_replaced hx hkept
    exact ⟨fun _ _ => message_rounded hx hle, fun _ _ => message_flipped hx hle⟩
  · obtain ⟨zeros, hzeros⟩ := exists_paddedDigits_eq count
    refine ⟨_, zeros, hzeros, ?_⟩
    rw [toList_twoPlaces hx, List.append_assoc]
    rfl
  · intro hbound
    exact ⟨whole_shown hx hbound, fun n hn => twoPlaces_of_integer hx hn hbound⟩

/-- A hundred and a multiple of ten close to 2^32, both negative, and a negative number that rounds
to zero. -/
theorem messages_of_hard_cases :
    let hundred : Binary64 := ⟨true, 0x4059000000000000, by decide⟩
    let nearHundred : Binary64 := ⟨true, 0x4058F00000000000, by decide⟩
    let tens : Binary64 := ⟨true, 0x41EFFFFFFF400000, by decide⟩
    let nearZero : Binary64 := ⟨true, 0x3FD0000000000000, by decide⟩
    (shown nearHundred).corrections =
        [.rounded nearHundred hundred, .flipped hundred hundred.abs] ∧
      (Correction.rounded nearHundred hundred).message =
        "exponent '-99.75' was rounded to '-100'" ∧
      (Correction.flipped hundred hundred.abs).message = "exponent '-100' was flipped to '100'" ∧
    (shown tens).corrections = [.flipped tens tens.abs] ∧
      (Correction.flipped tens tens.abs).message =
        "exponent '-4294967290' was flipped to '4294967290'" ∧
    (shown nearZero).corrections = [.rounded nearZero (.zero false)] ∧
      (Correction.rounded nearZero (.zero false)).message =
        "exponent '-0.25' was rounded to '0'" := by
  intro hundred nearHundred tens nearZero
  have hhundred : shown nearHundred =
      ⟨100, [.rounded nearHundred hundred, .flipped hundred hundred.abs]⟩ := by decide +kernel
  have htens : shown tens = ⟨4294967290, [.flipped tens tens.abs]⟩ := by decide +kernel
  have hzero : shown nearZero = ⟨0, [.rounded nearZero (.zero false)]⟩ := by decide +kernel
  have hroundedHundred : ⌊nearHundred.toRat + 1 / 2⌋ = -100 := by
    rw [floor_toRat_add_half]
    decide +kernel
  have hroundedZero : ⌊nearZero.toRat + 1 / 2⌋ = 0 := by
    rw [floor_toRat_add_half]
    decide +kernel
  have htextHundred : twoPlaces nearHundred = "-99.75" := by decide +kernel
  have htextZero : twoPlaces nearZero = "-0.25" := by decide +kernel
  have hmessagesHundred := (messages_exact nearHundred (by decide)).1 (by rw [hhundred]; decide)
  have hmessagesTens := (messages_exact tens (by decide)).1 (by rw [htens]; decide)
  have hmessagesZero := (messages_exact nearZero (by decide)).1 (by rw [hzero]; decide)
  rw [hhundred, htextHundred, hroundedHundred] at hmessagesHundred
  rw [htens] at hmessagesTens
  rw [hzero, htextZero, hroundedZero] at hmessagesZero
  rw [hhundred, htens, hzero]
  refine ⟨rfl, hmessagesHundred.1 _ _ List.mem_cons_self, ?_, rfl, ?_, rfl,
    hmessagesZero.1 _ _ List.mem_cons_self⟩
  · rw [hmessagesHundred.2 _ _ (List.mem_cons_of_mem _ List.mem_cons_self)]
    decide
  · rw [hmessagesTens.2 _ _ List.mem_cons_self]
    decide

end CoefficientForm.Exponent
