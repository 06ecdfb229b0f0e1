-- SUMMARY: The digits of a number shown with two places.
import CoefficientForm.Exponent.TwoPlaces
import CoefficientForm.Proofs.Decimal.Digits
import CoefficientForm.Proofs.Decimal.Text
import CoefficientForm.Proofs.Text.Blank

/-!
# The digits shown

A number is shown as the digits of its count of hundredths: all digits of the whole part, and the
places without the zeros at their end. The zeros at the end of a whole part stand before the point
and are kept.
-/

namespace CoefficientForm.Exponent

open Binary64
open Decimal (paddedDigits)

variable {x : Binary64} {count : ℕ}

/-! ## Hundredths in digits -/

/-- The places of a count of hundredths, without the zeros at their end. -/
def keptPlaces (count : ℕ) : List Char :=
  Text.dropTrailing (· == '0') (paddedDigits 2 (count % 100))

/-- A count of hundredths in digits, with a point only where places follow it. -/
def hundredthsText (count : ℕ) : List Char :=
  Nat.toDigits 10 (count / 100) ++
    if keptPlaces count = [] then [] else '.' :: keptPlaces count

theorem exists_paddedDigits_eq (count : ℕ) :
    ∃ zeros, paddedDigits 2 (count % 100) = keptPlaces count ++ List.replicate zeros '0' :=
  Decimal.exists_eq_dropTrailing_append _

theorem isDigit_of_mem_keptPlaces {c : Char} (h : c ∈ keptPlaces count) : c.isDigit = true :=
  Decimal.isDigit_of_mem_paddedDigits ((List.rdropWhile_prefix (· == '0') _).subset h)

theorem keptPlaces_eq_nil_iff : keptPlaces count = [] ↔ count % 100 = 0 := by
  constructor
  · intro hnil
    obtain ⟨zeros, hzeros⟩ := exists_paddedDigits_eq count
    rw [← Decimal.ofDigitChars_paddedDigits 2 (count % 100), hzeros, hnil, List.nil_append,
      Nat.ofDigitChars_replicate_zero, Nat.mul_zero]
  · intro hwhole
    rw [keptPlaces, hwhole]
    decide

theorem hundredthsText_hundred_mul (whole : ℕ) :
    hundredthsText (100 * whole) = Nat.toDigits 10 whole := by
  rw [hundredthsText, if_pos (keptPlaces_eq_nil_iff.2 (Nat.mul_mod_right _ _)),
    Nat.mul_div_cancel_left _ (by decide), List.append_nil]

theorem isDigit_head_hundredthsText (count : ℕ) {c : Char}
    (h : c ∈ (hundredthsText count).head?) : c.isDigit = true := by
  rw [hundredthsText, List.head?_append_of_ne_nil _ Nat.toDigits_ne_nil] at h
  exact Text.isDigit_of_mem_toDigits (List.mem_of_mem_head? h)

theorem hundredthsText_eq_zero_iff : hundredthsText count = ['0'] ↔ count = 0 := by
  constructor
  · intro hzero
    have hdigits := Nat.toDigits_ne_nil (b := 10) (n := count / 100)
    by_cases hkept : keptPlaces count = []
    · have hwhole : Nat.toDigits 10 (count / 100) = Nat.toDigits 10 0 := by
        rwa [hundredthsText, if_pos hkept, List.append_nil] at hzero
      have hquotient := Text.toDigits_injective hwhole
      have hremainder := keptPlaces_eq_nil_iff.1 hkept
      omega
    · -- A digit, a point and a place are more than one character.
      have hlength := congrArg List.length hzero
      rw [hundredthsText, if_neg hkept, List.length_append, List.length_cons,
        List.length_singleton] at hlength
      have hpos := List.length_pos_of_ne_nil hdigits
      omega
  · rintro rfl
    exact hundredthsText_hundred_mul 0

/-! ## The text -/

theorem getLast?_append_point (front kept : List Char) :
    (front ++ '.' :: kept).getLast? = some (kept.getLast?.getD '.') := by
  rw [List.getLast?_append_of_ne_nil _ (List.cons_ne_nil _ _), List.getLast?_cons]

/-- The zeros at the end are dropped as far as the point, and then the point if it is bare. -/
theorem dropZeros_append {front kept : List Char} (zeros : ℕ)
    (hfront : ∀ c ∈ front.getLast?, c ≠ '.') (hkept : ∀ c ∈ kept.getLast?, c ≠ '0' ∧ c ≠ '.') :
    dropZeros (front ++ '.' :: (kept ++ List.replicate zeros '0')) =
      if kept = [] then front else front ++ '.' :: kept := by
  have hzeros : ∀ c ∈ List.replicate zeros '0', (c == '0') = true :=
    fun c hc => beq_iff_eq.2 (List.eq_of_mem_replicate hc)
  have hlast : ∀ c ∈ (front ++ '.' :: kept).getLast?, (c == '0') = false := by
    rw [getLast?_append_point]
    rintro _ ⟨⟩
    cases hlast : kept.getLast? with
    | none => decide
    | some last => exact beq_eq_false_iff_ne.2 (hkept last hlast).1
  have hsplit : front ++ '.' :: (kept ++ List.replicate zeros '0') =
      front ++ '.' :: kept ++ List.replicate zeros '0' := by
    rw [List.append_assoc, List.cons_append]
  rw [dropZeros, hsplit, Text.dropTrailing_append hzeros hlast]
  split
  · rename_i hnil
    subst hnil
    exact Text.dropTrailing_append (by simp) fun c hc => beq_eq_false_iff_ne.2 (hfront c hc)
  · rename_i hne
    have hpoint : ∀ c ∈ (front ++ '.' :: kept).getLast?, (c == '.') = false := by
      rw [getLast?_append_point, List.getLast?_eq_some_getLast hne]
      rintro _ ⟨⟩
      exact beq_eq_false_iff_ne.2 (hkept _ (List.getLast?_eq_some_getLast hne)).2
    have hdrop : Text.dropTrailing (· == '.') (front ++ '.' :: kept ++ []) = front ++ '.' :: kept :=
      Text.dropTrailing_append (by simp) hpoint
    rwa [List.append_nil] at hdrop

theorem dropZeros_text (negative : Bool) (count : ℕ) :
    dropZeros (Decimal.text ⟨negative, count, -2⟩) =
      (if negative = true then ['-'] else []) ++ hundredthsText count := by
  obtain ⟨zeros, hzeros⟩ := exists_paddedDigits_eq count
  have hpoint {c : Char} (hc : c.isDigit = true) : c ≠ '.' := by
    rintro rfl
    cases hc
  have htext : Decimal.text ⟨negative, count, -2⟩ =
      (if negative = true then ['-'] else []) ++ Nat.toDigits 10 (count / 100) ++
        '.' :: (keptPlaces count ++ List.replicate zeros '0') := by
    rw [← hzeros]
    cases negative <;> rfl
  rw [htext, dropZeros_append zeros, hundredthsText]
  · split
    · rw [List.append_nil]
    · rw [List.append_assoc]
  · intro c hc
    rw [List.getLast?_append_of_ne_nil _ Nat.toDigits_ne_nil] at hc
    exact hpoint (Text.isDigit_of_mem_toDigits (List.mem_of_getLast? hc))
  · intro c hc
    exact ⟨beq_eq_false_iff_ne.1 (Text.last_dropTrailing (· == '0') _ c hc),
      hpoint (isDigit_of_mem_keptPlaces (List.mem_of_getLast? hc))⟩

/-- How many hundredths are shown. -/
def shownHundredths (x : Binary64) : ℕ :=
  roundHalfEven (((toHundredths x).copySign x).units * 100) one

/-- The sign is shown unless nothing but zero is left to show. -/
theorem toList_twoPlaces (hx : x.isFinite = true) :
    (twoPlaces x).toList =
      (if x.negative = true ∧ shownHundredths x ≠ 0 then ['-'] else []) ++
        hundredthsText (shownHundredths x) := by
  have htext : dropZeros (withTwoPlaces ((toHundredths x).copySign x)).text =
      (if x.negative = true then ['-'] else []) ++ hundredthsText (shownHundredths x) :=
    dropZeros_text x.negative (shownHundredths x)
  rw [twoPlaces, if_pos hx]
  dsimp only
  rw [htext]
  by_cases hnegative : x.negative = true
  · rw [if_pos hnegative, List.cons_append, List.nil_append]
    by_cases hzero : shownHundredths x = 0
    · have hdigits := hundredthsText_eq_zero_iff.2 hzero
      rw [hdigits, if_pos rfl, if_neg fun h => h.2 hzero]
      rfl
    · rw [if_neg, if_pos ⟨hnegative, hzero⟩, String.toList_ofList]
      · rfl
      · intro hminus
        exact hzero (hundredthsText_eq_zero_iff.1 (List.cons.inj hminus).2)
  · rw [if_neg hnegative, List.nil_append, if_neg, if_neg fun h => hnegative h.1,
      String.toList_ofList, List.nil_append]
    intro hminus
    have hdigit : Char.isDigit '-' = true :=
      isDigit_head_hundredthsText (shownHundredths x) (by rw [hminus]; rfl)
    cases hdigit

end CoefficientForm.Exponent
