-- SUMMARY: Two places are shown as a canonical numeral, near to every finite number.
import CoefficientForm.Proofs.Exponent.Accuracy
import CoefficientForm.Proofs.Json.Number

/-!
# Canonical numerals

A numeral is canonical if no zero at either end of it could be left out and no minus either. Every
finite number is shown as such a numeral with at most two places. Of all the zeros that may stand at
the end of the print only those behind the point are dropped, and a minus is printed only if a digit
other than zero is left.
-/

namespace CoefficientForm.Exponent

open Binary64
open Decimal (paddedDigits)

variable {x : Binary64} {negative : Bool} {whole places : List Char} {count : ℕ}

/-! ## Canonical numerals -/

/-- A minus or none, the whole part, and a point where places follow it. -/
def numeral (negative : Bool) (whole places : List Char) : List Char :=
  (if negative = true then ['-'] else []) ++ (whole ++ if places = [] then [] else '.' :: places)

/-- The value of a numeral without its sign. -/
def magnitudeOf (whole places : List Char) : ℚ :=
  (Decimal.ofDigits false whole places 0).toRat

/-- Whether a numeral has at most two places, no digit that adds nothing to its value, and no minus
in front of zero. -/
structure IsCanonical (negative : Bool) (whole places : List Char) : Prop where
  isDigits_whole : Json.IsDigits whole
  /-- Only a whole part of zero starts with a zero. -/
  leading : whole = ['0'] ∨ whole.head? ≠ some '0'
  isDigit_places : ∀ c ∈ places, c.isDigit = true
  length_places_le : places.length ≤ 2
  trailing : places.getLast? ≠ some '0'
  minus : negative = true → magnitudeOf whole places ≠ 0

theorem mem_numeral_iff {c : Char} :
    c ∈ numeral negative whole places ↔
      negative = true ∧ c = '-' ∨ c ∈ whole ∨ places ≠ [] ∧ (c = '.' ∨ c ∈ places) := by
  simp only [numeral, List.mem_append, List.mem_ite_nil_right, List.mem_ite_nil_left,
    List.mem_cons, List.not_mem_nil, or_false, ne_eq]

theorem IsCanonical.isDigit_or_of_mem {c : Char} (h : IsCanonical negative whole places)
    (hc : c ∈ numeral negative whole places) : c.isDigit = true ∨ c = '-' ∨ c = '.' := by
  rcases mem_numeral_iff.1 hc with ⟨-, hminus⟩ | hwhole | ⟨-, hpoint | hplace⟩
  · exact .inr (.inl hminus)
  · exact .inl (h.isDigits_whole.isDigit c hwhole)
  · exact .inr (.inr hpoint)
  · exact .inl (h.isDigit_places c hplace)

theorem IsCanonical.minus_mem_iff (h : IsCanonical negative whole places) :
    '-' ∈ numeral negative whole places ↔ negative = true := by
  have hminus : ¬ Char.isDigit '-' = true := by decide
  constructor
  · intro hmem
    rcases mem_numeral_iff.1 hmem with ⟨hnegative, -⟩ | hwhole | ⟨-, hpoint | hplace⟩
    · exact hnegative
    · exact absurd (h.isDigits_whole.isDigit _ hwhole) hminus
    · cases hpoint
    · exact absurd (h.isDigit_places _ hplace) hminus
  · intro hnegative
    exact mem_numeral_iff.2 (.inl ⟨hnegative, rfl⟩)

theorem IsCanonical.isDigit_of_getLast? {c : Char} (h : IsCanonical negative whole places)
    (hc : c ∈ (numeral negative whole places).getLast?) : c.isDigit = true := by
  rw [numeral, List.getLast?_append_of_ne_nil _
    (List.append_ne_nil_of_left_ne_nil h.isDigits_whole.ne_nil _)] at hc
  split at hc
  · rw [List.append_nil] at hc
    exact h.isDigits_whole.isDigit c (List.mem_of_getLast? hc)
  · rename_i hne
    rw [getLast?_append_point, List.getLast?_eq_some_getLast hne] at hc
    cases hc
    exact h.isDigit_places _ (List.getLast_mem hne)

theorem magnitudeOf_zero : magnitudeOf ['0'] [] = 0 := by
  have hzero : Decimal.ofDigits false ['0'] [] 0 = ⟨false, 0, 0⟩ := rfl
  rw [magnitudeOf, hzero, Decimal.toRat, Nat.cast_zero, zero_mul]
  rfl

theorem IsCanonical.numeral_ne_minus_zero (h : IsCanonical negative whole places) :
    numeral negative whole places ≠ ['-', '0'] := by
  intro hnumeral
  obtain rfl : negative = true := by
    rw [← h.minus_mem_iff, hnumeral]
    exact List.mem_cons_self
  have hzero : (whole ++ if places = [] then [] else '.' :: places) = ['0'] :=
    (List.cons.inj hnumeral).2
  rcases List.append_eq_singleton_iff.1 hzero with ⟨hnil, -⟩ | ⟨rfl, hpoint⟩
  · exact h.isDigits_whole.ne_nil hnil
  · obtain rfl : places = [] := by
      by_contra hne
      rw [if_neg hne] at hpoint
      cases hpoint
    exact h.minus rfl magnitudeOf_zero

/-! ## Hundredths -/

theorem magnitudeOf_hundredths (count : ℕ) :
    magnitudeOf (Nat.toDigits 10 (count / 100)) (keptPlaces count) = count / 100 :=
  (toRat_ofDigits_hundredths false count).trans (toRat_hundredths false count)

theorem isCanonical_hundredths (h : negative = true → count ≠ 0) :
    IsCanonical negative (Nat.toDigits 10 (count / 100)) (keptPlaces count) where
  isDigits_whole := Json.isDigits_toDigits _
  leading := by
    have hwhole := Json.isWholePart_toDigits (count / 100)
    by_cases hzero : (Nat.toDigits 10 (count / 100)).head? = some '0'
    · obtain ⟨rest, hrest⟩ := List.head?_eq_some_iff.1 hzero
      rw [hrest] at hwhole ⊢
      cases rest with
      | nil => exact .inl rfl
      | cons => cases hwhole
    · exact .inr hzero
  isDigit_places := fun _ => isDigit_of_mem_keptPlaces
  length_places_le := by
    have hwidth : (paddedDigits 2 (count % 100)).length = 2 :=
      Decimal.length_paddedDigits two_pos (Nat.mod_lt _ (by decide))
    rw [← hwidth]
    exact (List.rdropWhile_prefix (· == '0') _).length_le
  trailing := by
    intro hlast
    exact absurd (Text.last_dropTrailing (· == '0') _ '0' hlast) (by decide)
  minus := by
    intro hnegative
    rw [magnitudeOf_hundredths]
    exact div_ne_zero (Nat.cast_ne_zero.2 (h hnegative)) (by norm_num)

/-! ## The sign -/

/-- The sign of the numeral that is shown. -/
def shownSign (x : Binary64) : Bool :=
  x.negative && decide (shownHundredths x ≠ 0)

theorem shownSign_eq_true_iff :
    shownSign x = true ↔ x.negative = true ∧ shownHundredths x ≠ 0 := by
  rw [shownSign, Bool.and_eq_true, decide_eq_true_eq]

/-- The sign is put aside before anything is rounded. -/
theorem shownHundredths_neg (x : Binary64) : shownHundredths x.neg = shownHundredths x :=
  rfl

theorem shownSign_neg (h : shownHundredths x ≠ 0) : shownSign x.neg = !shownSign x := by
  rw [shownSign, shownHundredths_neg, shownSign, decide_eq_true h, Bool.and_true, Bool.and_true]
  rfl

theorem toList_twoPlaces_eq_numeral (hx : x.isFinite = true) :
    (twoPlaces x).toList =
      numeral (shownSign x) (Nat.toDigits 10 (shownHundredths x / 100))
        (keptPlaces (shownHundredths x)) := by
  rw [toList_twoPlaces hx, numeral, hundredthsText]
  simp only [shownSign_eq_true_iff]

/-! ## The text -/

theorem negative_and_shown_iff (hx : x.isFinite = true) :
    x.negative = true ∧ shownHundredths x ≠ 0 ↔ x.toRat < 0 ∧ shownHundredths x ≠ 0 := by
  apply and_congr_left
  intro hshown
  have hpos : 0 < x.magnitude := by
    by_contra hzero
    have hmagnitude : x.magnitude = 0 := le_antisymm (not_lt.1 hzero) x.magnitude_nonneg
    apply hshown
    apply (countsHundredths_shown hx (by rw [hmagnitude]; norm_num)).eq_of_whole
    · rw [hmagnitude]
      norm_num
    · rw [hmagnitude, mul_zero, Nat.cast_zero]
  rw [toRat_eq_withSign, withSign]
  cases x.negative with
  | false => exact iff_of_false Bool.false_ne_true (not_lt.2 hpos.le)
  | true => exact iff_of_true rfl (neg_neg_of_pos hpos)

theorem abs_withSign_shown_sub_le (hx : x.isFinite = true) :
    |withSign (shownSign x) (shownHundredths x / 100) - x.toRat| ≤
      1 / 200 + |x.toRat| / 2 ^ 50 := by
  have hnear := abs_shownHundredths_sub_le hx
  have hmagnitude : |withSign (shownSign x) (shownHundredths x / 100) - x.toRat| =
      |shownHundredths x / 100 - x.magnitude| := by
    by_cases hzero : shownHundredths x = 0
    · rw [shownSign, hzero, decide_eq_false (not_not_intro rfl), Bool.and_false, withSign,
        if_neg Bool.false_ne_true, Nat.cast_zero, zero_div, zero_sub, zero_sub, abs_neg, abs_neg,
        abs_toRat, abs_of_nonneg x.magnitude_nonneg]
    · rw [shownSign, decide_eq_true hzero, Bool.and_true, toRat_eq_withSign, withSign, withSign]
      cases x.negative with
      | false => rfl
      | true => rw [if_pos rfl, if_pos rfl, neg_sub_neg, abs_sub_comm]
  rw [hmagnitude, abs_toRat]
  rw [abs_le] at hnear ⊢
  constructor <;> linarith

/-- Every finite number is shown as a canonical numeral near to it: without an exponent, without a
bare point, and with a minus exactly if the number is negative and not shown as zero. The number of
the other sign has the same numeral with the other sign, and the very same if that is zero. -/
theorem twoPlaces_canonical (x : Binary64) (hx : x.isFinite = true) :
    ∃ (negative : Bool) (whole places : List Char),
      (twoPlaces x).toList = numeral negative whole places ∧ IsCanonical negative whole places ∧
      ('-' ∈ (twoPlaces x).toList ↔ x.toRat < 0 ∧ magnitudeOf whole places ≠ 0) ∧
      |withSign negative (magnitudeOf whole places) - x.toRat| ≤ 1 / 200 + |x.toRat| / 2 ^ 50 ∧
      twoPlaces x ≠ "-0" ∧
      (∀ c ∈ (twoPlaces x).toList, c.isDigit = true ∨ c = '-' ∨ c = '.') ∧
      (∀ c ∈ (twoPlaces x).toList.getLast?, c.isDigit = true) ∧
      (magnitudeOf whole places ≠ 0 →
        (twoPlaces x.neg).toList = numeral (!negative) whole places) ∧
      (magnitudeOf whole places = 0 → twoPlaces x.neg = twoPlaces x) := by
  have hnumeral := toList_twoPlaces_eq_numeral hx
  have hcanonical : IsCanonical (shownSign x) _ _ :=
    isCanonical_hundredths fun hsign => (shownSign_eq_true_iff.1 hsign).2
  have hmagnitude := magnitudeOf_hundredths (shownHundredths x)
  have hzero : magnitudeOf (Nat.toDigits 10 (shownHundredths x / 100))
      (keptPlaces (shownHundredths x)) = 0 ↔ shownHundredths x = 0 := by
    rw [hmagnitude, div_eq_zero_iff, Nat.cast_eq_zero, or_iff_left (by norm_num)]
  have hother := toList_twoPlaces_eq_numeral (x := x.neg) hx
  rw [shownHundredths_neg] at hother
  refine ⟨shownSign x, _, _, hnumeral, hcanonical, ?_, ?_, ?_, ?_, ?_, ?_, ?_⟩
  · rw [hnumeral, hcanonical.minus_mem_iff, shownSign_eq_true_iff, negative_and_shown_iff hx, Ne,
      Ne, hzero]
  · rw [hmagnitude]
    exact abs_withSign_shown_sub_le hx
  · intro hminus
    rw [hminus] at hnumeral
    exact hcanonical.numeral_ne_minus_zero hnumeral.symm
  · intro c hc
    rw [hnumeral] at hc
    exact hcanonical.isDigit_or_of_mem hc
  · intro c hc
    rw [hnumeral] at hc
    exact hcanonical.isDigit_of_getLast? hc
  · intro hne
    rw [hother, shownSign_neg (mt hzero.2 hne)]
  · intro heq
    have hunsigned {y : Binary64} (hy : shownHundredths y = 0) : shownSign y = false := by
      rw [shownSign, hy, decide_eq_false (not_not_intro rfl), Bool.and_false]
    apply String.toList_injective
    rw [hother, hnumeral, hunsigned (hzero.1 heq), hunsigned (y := x.neg) (hzero.1 heq)]

/-- Both signs of a number with a place, a negative number that is shown as zero, and the largest
finite one, whose hundredfold is infinite. -/
theorem twoPlaces_canonical_at_extremes :
    let number : Binary64 := ⟨true, 0x4004000000000000, by decide⟩
    let smallest : Binary64 := ⟨true, 1, by decide⟩
    (∃ whole places, "-2.5".toList = numeral true whole places ∧ IsCanonical true whole places ∧
      (twoPlaces number.neg).toList = numeral false whole places) ∧
    twoPlaces number.neg = "2.5" ∧
    twoPlaces smallest = "0" ∧ twoPlaces smallest ≠ "-0" ∧
    'e' ∉ (twoPlaces greatest).toList := by
  intro number smallest
  obtain ⟨negative, whole, places, hnumeral, hcanonical, -, -, -, -, -, hother, -⟩ :=
    twoPlaces_canonical number (by decide)
  obtain ⟨-, -, -, -, -, -, -, hsmallest, -⟩ := twoPlaces_canonical smallest (by decide)
  obtain ⟨-, -, -, -, -, -, -, -, hchars, -⟩ := twoPlaces_canonical greatest (by decide)
  have htext : twoPlaces number = "-2.5" := by decide +kernel
  rw [htext] at hnumeral
  obtain rfl : negative = true := by
    rw [← hcanonical.minus_mem_iff, ← hnumeral]
    exact List.mem_cons_self
  refine ⟨⟨whole, places, hnumeral, hcanonical, hother (hcanonical.minus rfl)⟩, by decide +kernel,
    by decide +kernel, hsmallest, ?_⟩
  intro hexponent
  exact absurd (hchars 'e' hexponent) (by decide)

end CoefficientForm.Exponent
