-- SUMMARY: Which texts are accepted as a degree, and why any other is refused.
import CoefficientForm.Degree
import CoefficientForm.Proofs.Binary64.Denoted
import CoefficientForm.Proofs.Binary64.Floor
import CoefficientForm.Proofs.Text.Blank

/-!
# The verdict on a degree

What was typed, without the blanks around it, is nothing, no number, or denotes a double. The double
is then judged by its exact value: infinite, no integer, too small, too large, or the degree itself.
The verdicts exclude each other, and the check gives each text the one that it deserves.
-/

namespace CoefficientForm.Degree

open Binary64
open Decimal (WrittenNumeral)
open Text (AllBlank Trims)

/-- The verdict on a double that is a number, by its exact value. -/
inductive ValueVerdict (bounds : DegreeBounds) (value : Binary64) :
    Except DegreeRefusal Degree → Prop
  | infinite : value.isInfinite = true → ValueVerdict bounds value (.error (.outOfRange value))
  | fractional : value.isFinite = true → (∀ n : ℤ, value.toRat ≠ n) →
      ValueVerdict bounds value (.error (.fractional value))
  | tooSmall {n : ℤ} : value.isFinite = true → value.toRat = n → n < bounds.min.toNat →
      ValueVerdict bounds value (.error (.tooSmall value bounds.min))
  | tooLarge {n : ℤ} : value.isFinite = true → value.toRat = n → bounds.min.toNat ≤ n →
      bounds.max.toNat < n → ValueVerdict bounds value (.error (.outOfRange value))
  | accepted {degree : Degree} : value.isFinite = true → value.toRat = degree.value.toNat →
      bounds.min ≤ degree.value → degree.value ≤ bounds.max →
      ValueVerdict bounds value (.ok degree)

/-- The verdict on what was typed, when the blanks around it are gone. -/
inductive Verdict (bounds : DegreeBounds) (typed : String) : Except DegreeRefusal Degree → Prop
  | blank : typed = "" → Verdict bounds typed (.error .blank)
  | noNumber : typed ≠ "" → (∀ value, Denotes typed.toList value → value.isNaN = true) →
      Verdict bounds typed (.error (.noNumber typed))
  | number {value : Binary64} {result : Except DegreeRefusal Degree} :
      Denotes typed.toList value → value.isNaN = false → ValueVerdict bounds value result →
      Verdict bounds typed result

variable {bounds : DegreeBounds} {value : Binary64} {result : Except DegreeRefusal Degree}

/-! ## The value -/

theorem less_ofUInt32_iff {n : ℤ} (hfinite : value.isFinite = true) (h : value.toRat = n)
    (bound : UInt32) : value.less (ofUInt32 bound) = true ↔ n < bound.toNat := by
  rw [less_iff_toRat hfinite (isFinite_ofUInt32 bound), h, toRat_ofUInt32]
  norm_cast

theorem ofUInt32_less_iff {n : ℤ} (hfinite : value.isFinite = true) (h : value.toRat = n)
    (bound : UInt32) : (ofUInt32 bound).less value = true ↔ bound.toNat < n := by
  rw [less_iff_toRat (isFinite_ofUInt32 bound) hfinite, h, toRat_ofUInt32]
  norm_cast

/-- The bounds are compared only with the value of a double that is an integer. -/
theorem ofValue_of_integer {n : ℤ} (hfinite : value.isFinite = true) (h : value.toRat = n) :
    ofValue bounds value =
      if n < bounds.min.toNat then .error (.tooSmall value bounds.min)
      else if bounds.max.toNat < n then .error (.outOfRange value)
      else .ok ⟨value.toUInt32⟩ := by
  simp only [ofValue, isNaN_of_isFinite hfinite, isInfinite_of_isFinite hfinite,
    isIntegral_iff.2 ⟨n, h⟩, less_ofUInt32_iff hfinite h, ofUInt32_less_iff hfinite h,
    Bool.not_true, Bool.false_eq_true, if_false]

theorem toUInt32_of_toRat_eq {n : UInt32} (h : value.toRat = n.toNat) : value.toUInt32 = n := by
  have hscaled : value.scaled = (n.toNat : ℤ) * one :=
    toRat_eq_intCast_iff.1 (h.trans (Int.cast_natCast _).symm)
  have hunits : value.units = n.toNat * one := by
    rw [← natAbs_scaled, hscaled]
    rfl
  rw [toUInt32, hunits, Nat.mul_div_cancel _ one_units_pos, UInt32.ofNat_toNat]

theorem ValueVerdict.ofValue_eq (hnan : value.isNaN = false) (h : ValueVerdict bounds value result) :
    ofValue bounds value = result := by
  cases h with
  | infinite hinfinite => simp [ofValue, hnan, hinfinite]
  | fractional hfinite hfraction =>
      have hintegral : value.isIntegral = false := by
        rw [← Bool.not_eq_true, isIntegral_iff]
        exact fun ⟨n, hn⟩ => hfraction n hn
      simp [ofValue, hnan, isInfinite_of_isFinite hfinite, hintegral]
  | tooSmall hfinite hvalue hmin => rw [ofValue_of_integer hfinite hvalue, if_pos hmin]
  | tooLarge hfinite hvalue hmin hmax =>
      rw [ofValue_of_integer hfinite hvalue, if_neg (not_lt.2 hmin), if_pos hmax]
  | @accepted degree hfinite hvalue hmin hmax =>
      have hinteger : value.toRat = ((degree.value.toNat : ℤ) : ℚ) :=
        hvalue.trans (Int.cast_natCast _).symm
      have hlow : ¬ (degree.value.toNat : ℤ) < bounds.min.toNat :=
        not_lt.2 (Int.ofNat_le.2 (UInt32.le_iff_toNat_le.1 hmin))
      have hhigh : ¬ (bounds.max.toNat : ℤ) < degree.value.toNat :=
        not_lt.2 (Int.ofNat_le.2 (UInt32.le_iff_toNat_le.1 hmax))
      rw [ofValue_of_integer hfinite hinteger, if_neg hlow, if_neg hhigh,
        toUInt32_of_toRat_eq hvalue]

theorem exists_valueVerdict (bounds : DegreeBounds) (hnan : value.isNaN = false) :
    ∃ result, ValueVerdict bounds value result := by
  by_cases hinfinite : value.isInfinite = true
  · exact ⟨_, .infinite hinfinite⟩
  have hfinite := isFinite_of_not_isNaN (Bool.eq_false_iff.1 hnan) hinfinite
  by_cases hinteger : ∃ n : ℤ, value.toRat = n
  · obtain ⟨n, hn⟩ := hinteger
    rcases lt_or_ge n bounds.min.toNat with hmin | hmin
    · exact ⟨_, .tooSmall hfinite hn hmin⟩
    rcases lt_or_ge (bounds.max.toNat : ℤ) n with hmax | hmax
    · exact ⟨_, .tooLarge hfinite hn hmin hmax⟩
    lift n to ℕ using (Int.natCast_nonneg _).trans hmin
    have hnat : (UInt32.ofNat n).toNat = n :=
      UInt32.toNat_ofNat_of_lt' (Nat.lt_of_le_of_lt (Int.ofNat_le.1 hmax) bounds.max.toNat_lt)
    refine ⟨.ok ⟨UInt32.ofNat n⟩, .accepted hfinite ?_ ?_ ?_⟩
    · rw [hn, hnat, Int.cast_natCast]
    · rw [UInt32.le_iff_toNat_le, hnat]
      exact Int.ofNat_le.1 hmin
    · rw [UInt32.le_iff_toNat_le, hnat]
      exact Int.ofNat_le.1 hmax
  · exact ⟨_, .fractional hfinite fun n hn => hinteger ⟨n, hn⟩⟩

/-! ## The text -/

variable {typed input : String}

theorem not_denotes_empty : ¬ Denotes "".toList value := by
  intro h
  cases (ofText?_eq_some_iff.2 h : ofText? "" = some value)

theorem ofText_of_denotes (hvalue : Denotes (Text.trimmed input).toList value)
    (hnan : value.isNaN = false) : ofText bounds input = ofValue bounds value := by
  have htyped : Text.trimmed input ≠ "" := by
    intro hempty
    rw [hempty] at hvalue
    exact not_denotes_empty hvalue
  simp only [ofText, if_neg htyped, ofText?_eq_some_iff.2 hvalue, hnan, Bool.false_eq_true,
    if_false]

theorem Verdict.ofText_eq (h : Verdict bounds (Text.trimmed input) result) :
    ofText bounds input = result := by
  cases h with
  | blank hempty => simp only [ofText, if_pos hempty]
  | noNumber htyped hnan =>
      simp only [ofText, if_neg htyped]
      split
      · rfl
      · rename_i value hread
        rw [if_pos (hnan value (ofText?_eq_some_iff.1 hread))]
  | number hvalue hnan hverdict =>
      rw [ofText_of_denotes hvalue hnan, hverdict.ofValue_eq hnan]

theorem exists_verdict (bounds : DegreeBounds) (typed : String) :
    ∃ result, Verdict bounds typed result := by
  by_cases hempty : typed = ""
  · exact ⟨_, .blank hempty⟩
  by_cases hnan : ∀ value, Denotes typed.toList value → value.isNaN = true
  · exact ⟨_, .noNumber hempty hnan⟩
  push Not at hnan
  obtain ⟨value, hvalue, hnumber⟩ := hnan
  have hnot := Bool.eq_false_iff.2 hnumber
  obtain ⟨result, hresult⟩ := exists_valueVerdict bounds hnot
  exact ⟨result, .number hvalue hnot hresult⟩

theorem ofText_eq_iff :
    ofText bounds input = result ↔ Verdict bounds (Text.trimmed input) result := by
  refine ⟨?_, Verdict.ofText_eq⟩
  intro h
  obtain ⟨other, hother⟩ := exists_verdict bounds (Text.trimmed input)
  rw [← h, hother.ofText_eq]
  exact hother

theorem trims_iff : Trims input.toList typed.toList ↔ typed = Text.trimmed input := by
  rw [← Text.trim_eq_iff, eq_comm, Text.trimmed, ← String.toList_inj, String.toList_ofList]

theorem bounds_of_ofText {degree : Degree} (h : ofText bounds input = .ok degree) :
    bounds.min ≤ degree.value ∧ degree.value ≤ bounds.max := by
  cases ofText_eq_iff.1 h with
  | number _ _ hverdict =>
      cases hverdict with
      | accepted _ _ hmin hmax => exact ⟨hmin, hmax⟩

/-! ## Numerals -/

variable {d : Decimal} {degree : Degree}

theorem toBinary64_of_toRat_eq {n : UInt32} (h : d.toRat = n.toNat) :
    d.toBinary64.isFinite = true ∧ d.toBinary64.toRat = n.toNat := by
  have habs : |d.toRat| = (ofUInt32 n).magnitude := by
    rw [magnitude_ofUInt32, h, Nat.abs_cast]
  rw [← h]
  exact Decimal.isFinite_and_toRat_toBinary64 (isFinite_ofUInt32 n) habs

/-- How an integer is written makes no difference. -/
theorem ofText_of_numeral (hwritten : WrittenNumeral d (Text.trimmed input).toList)
    (h : d.toRat = degree.value.toNat) (hmin : bounds.min ≤ degree.value)
    (hmax : degree.value ≤ bounds.max) : ofText bounds input = .ok degree := by
  obtain ⟨hfinite, hvalue⟩ := toBinary64_of_toRat_eq h
  exact ofText_eq_iff.2 (.number (denotes_toBinary64 hwritten) (isNaN_of_isFinite hfinite)
    (.accepted hfinite hvalue hmin hmax))

/-! ## All texts -/

/-- Every text gets the verdict on what is left of it without the blanks around it, and no other.
So an integer within the bounds is accepted in whatever way it is written, nothing is accepted
within bounds that are the wrong way round, and blanks around a text change nothing. -/
theorem ofText_verdict (bounds : DegreeBounds) (input : String) :
    (∀ result, ofText bounds input = result ↔
      ∃ typed : String, Trims input.toList typed.toList ∧ Verdict bounds typed result) ∧
    (∀ (typed : List Char) (d : Decimal) (degree : Degree), Trims input.toList typed →
      WrittenNumeral d typed → d.toRat = degree.value.toNat → bounds.min ≤ degree.value →
      degree.value ≤ bounds.max → ofText bounds input = .ok degree) ∧
    (bounds.max < bounds.min → ∀ degree, ofText bounds input ≠ .ok degree) ∧
    ∀ before after, AllBlank before → AllBlank after →
      ofText bounds (String.ofList before ++ input ++ String.ofList after) =
        ofText bounds input := by
  refine ⟨?_, ?_, ?_, ?_⟩
  · intro result
    simp only [trims_iff, exists_eq_left, ofText_eq_iff]
  · intro typed d degree htrims hwritten
    rw [← htrims.trim_eq, ← String.toList_ofList (l := Text.trim _)] at hwritten
    exact ofText_of_numeral hwritten
  · intro hbounds degree h
    obtain ⟨hmin, hmax⟩ := bounds_of_ofText h
    exact absurd (UInt32.le_trans hmin hmax) (UInt32.not_le.2 hbounds)
  · intro before after hbefore hafter
    simp only [ofText, Text.trimmed_append hbefore hafter]

/-- The largest degree of all, with blanks, a sign, zeros, a point and a power of ten. -/
theorem ofText_of_written_maximum :
    ofText ⟨0, 4294967295⟩ "\u2003+0042949672.950E2\n" = .ok ⟨4294967295⟩ := by
  have hwritten : WrittenNumeral ⟨false, 42949672950, -1⟩ "+0042949672.950E2".toList :=
    Decimal.ofNumeral?_eq_some_iff.1 (by decide)
  have htrims : Trims "\u2003+0042949672.950E2\n".toList "+0042949672.950E2".toList :=
    Text.trim_eq_iff.1 (by decide)
  have hvalue : Decimal.toRat ⟨false, 42949672950, -1⟩ = (4294967295 : UInt32).toNat := by
    have hnat : (4294967295 : UInt32).toNat = 4294967295 := rfl
    rw [hnat]
    norm_num [Decimal.toRat, withSign]
  exact (ofText_verdict ⟨0, 4294967295⟩ _).2.1 _ _ ⟨4294967295⟩ htrims hwritten hvalue
    (by decide) (by decide)

end CoefficientForm.Degree
