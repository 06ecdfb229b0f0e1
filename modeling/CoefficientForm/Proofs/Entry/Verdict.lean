-- SUMMARY: Which texts are accepted as an entry, and as which coefficient.
import CoefficientForm.Field.Basic
import CoefficientForm.Proofs.Binary64.Spacing
import CoefficientForm.Proofs.Degree.Verdict
import CoefficientForm.Proofs.Entry

/-!
# The verdict on an entry

What was typed, without the blanks around it, is nothing, a numeral of a finite number, or no
number. A numeral is finite when it lies below the point halfway from the largest finite double to
the power of two above it. Words and texts with any character that has no place in a numeral are no
numbers. Where an entry would also be taken as a degree, both are the same number.
-/

namespace CoefficientForm

open Binary64 (Denotes Reads overflowBound)
open Decimal (IsNumeralChar WrittenNumeral)
open Json (WrittenSign)
open Text (Trims)

/-- The verdict on what was typed, when the blanks around it are gone. -/
inductive EntryVerdict (typed : String) : Except InvalidEntry Binary64 → Prop
  | blank : typed = "" → EntryVerdict typed (.ok (.zero false))
  | number {d : Decimal} {value : Binary64} : WrittenNumeral d typed.toList →
      value.negative = d.negative → value.IsNearest |d.toRat| → value.isFinite = true →
      EntryVerdict typed (.ok value)
  | noNumber : typed ≠ "" → (∀ d, WrittenNumeral d typed.toList → overflowBound ≤ |d.toRat|) →
      EntryVerdict typed (.error ⟨typed⟩)

variable {entry typed : String} {value : Binary64} {d : Decimal}

/-! ## Numerals -/

/-- A double that is finite is denoted by no word. -/
theorem Binary64.Denotes.exists_numeral {cs : List Char} (h : Denotes cs value)
    (hfinite : value.isFinite = true) :
    ∃ d, WrittenNumeral d cs ∧ value.negative = d.negative ∧ value.IsNearest |d.toRat| := by
  cases h with
  | infinity => cases hfinite
  | nan => cases hfinite
  | numeral hwritten hsign hnearest => exact ⟨_, hwritten, hsign, hnearest⟩

theorem isFinite_toBinary64_iff : d.toBinary64.isFinite = true ↔ |d.toRat| < overflowBound :=
  d.isNearest_toBinary64.isFinite_iff

theorem not_writtenNumeral_empty : ¬ WrittenNumeral d "".toList := fun h =>
  Degree.not_denotes_empty (Binary64.denotes_toBinary64 h)

theorem resolves_iff :
    Resolves entry ↔
      Text.trimmed entry = "" ∨
        ∃ d, WrittenNumeral d (Text.trimmed entry).toList ∧ |d.toRat| < overflowBound := by
  simp only [Resolves, Binary64.ofText?_eq_some_iff]
  refine or_congr_right ?_
  constructor
  · rintro ⟨value, hvalue, hfinite⟩
    obtain ⟨d, hwritten, -, hnearest⟩ := hvalue.exists_numeral hfinite
    exact ⟨d, hwritten, hnearest.isFinite_iff.1 hfinite⟩
  · rintro ⟨d, hwritten, hbound⟩
    exact ⟨_, Binary64.denotes_toBinary64 hwritten, isFinite_toBinary64_iff.2 hbound⟩

theorem exists_coefficientOf_eq_ok_iff :
    (∃ value, coefficientOf entry = .ok value) ↔ Resolves entry := by
  constructor
  · rintro ⟨value, hvalue⟩
    exact resolves_of_coefficientOf hvalue
  · exact coefficientOf_of_resolves

/-! ## The verdict -/

theorem entryVerdict_of_coefficientOf (entry : String) :
    EntryVerdict (Text.trimmed entry) (coefficientOf entry) := by
  by_cases hresolves : Resolves entry
  · obtain ⟨value, hvalue⟩ := coefficientOf_of_resolves hresolves
    rw [hvalue]
    rcases coefficientOf_eq_ok_iff.1 hvalue with ⟨hblank, rfl⟩ | ⟨-, hread, hfinite⟩
    · exact .blank hblank
    · obtain ⟨d, hwritten, hsign, hnearest⟩ :=
        (Binary64.ofText?_eq_some_iff.1 hread).exists_numeral hfinite
      exact .number hwritten hsign hnearest hfinite
  · rw [coefficientOf_of_not_resolves hresolves]
    rw [resolves_iff, not_or, not_exists] at hresolves
    refine .noNumber hresolves.1 ?_
    intro d hwritten
    exact not_lt.1 fun hbound => hresolves.2 d ⟨hwritten, hbound⟩

theorem EntryVerdict.coefficientOf_eq {result : Except InvalidEntry Binary64}
    (h : EntryVerdict (Text.trimmed entry) result) : coefficientOf entry = result := by
  cases h with
  | blank hblank => exact coefficientOf_eq_ok_iff.2 (.inl ⟨hblank, rfl⟩)
  | @number d value hwritten hsign hnearest hfinite =>
      refine coefficientOf_eq_ok_iff.2 (.inr ⟨?_, ?_, hfinite⟩)
      · intro hblank
        rw [hblank] at hwritten
        exact not_writtenNumeral_empty hwritten
      · exact Binary64.ofText?_eq_some_iff.2 (.numeral hwritten hsign hnearest)
  | noNumber hblank hoverflow =>
      apply coefficientOf_of_not_resolves
      rw [resolves_iff, not_or, not_exists]
      exact ⟨hblank, fun d hd => absurd hd.2 (not_lt.2 (hoverflow d hd.1))⟩

theorem coefficientOf_eq_iff {result : Except InvalidEntry Binary64} :
    coefficientOf entry = result ↔ EntryVerdict (Text.trimmed entry) result := by
  constructor
  · rintro rfl
    exact entryVerdict_of_coefficientOf entry
  · exact EntryVerdict.coefficientOf_eq

/-! ## Texts that are no numbers -/

theorem coefficientOf_of_word {negative : Bool} {sign word : List Char}
    (hsign : WrittenSign negative sign)
    (hword : Reads "inf" word ∨ Reads "infinity" word ∨ Reads "nan" word)
    (h : (Text.trimmed entry).toList = sign ++ word) :
    coefficientOf entry = .error ⟨Text.trimmed entry⟩ := by
  have hdenotes : ∃ x : Binary64, Denotes (Text.trimmed entry).toList x ∧ ¬ x.isFinite = true := by
    rw [h]
    rcases hword with hword | hword | hword
    · exact ⟨_, .infinity hsign (.inl hword), Bool.false_ne_true⟩
    · exact ⟨_, .infinity hsign (.inr hword), Bool.false_ne_true⟩
    · exact ⟨_, .nan hsign hword, Bool.false_ne_true⟩
  obtain ⟨x, hx, hnot⟩ := hdenotes
  apply coefficientOf_of_not_resolves
  rintro (hblank | ⟨value, hread, hfinite⟩)
  · rw [hblank] at hx
    exact Degree.not_denotes_empty hx
  · rw [(Binary64.ofText?_eq_some_iff.1 hread).unique hx] at hfinite
    exact hnot hfinite

theorem coefficientOf_of_foreign_char {c : Char} (hc : c ∈ (Text.trimmed entry).toList)
    (hforeign : ¬ IsNumeralChar c) : coefficientOf entry = .error ⟨Text.trimmed entry⟩ := by
  apply coefficientOf_of_not_resolves
  rw [resolves_iff]
  rintro (hblank | ⟨d, hwritten, -⟩)
  · rw [hblank] at hc
    cases hc
  · exact hforeign (hwritten.isNumeralChar c hc)

/-! ## Entries and degrees -/

theorem toRat_eq_of_ofText {bounds : DegreeBounds} {degree : Degree}
    (hdegree : Degree.ofText bounds entry = .ok degree) (hvalue : coefficientOf entry = .ok value) :
    value.toRat = degree.value.toNat := by
  cases Degree.ofText_eq_iff.1 hdegree with
  | @number shown _ hdenotes _ hverdict =>
      have hsame : value = shown := by
        rcases coefficientOf_eq_ok_iff.1 hvalue with ⟨hblank, -⟩ | ⟨-, hread, -⟩
        · rw [hblank] at hdenotes
          exact absurd hdenotes Degree.not_denotes_empty
        · exact (Binary64.ofText?_eq_some_iff.1 hread).unique hdenotes
      cases hverdict with
      | accepted _ hshown _ _ =>
          rw [hsame]
          exact hshown

/-! ## All texts -/

/-- Every text gets the verdict on what is left of it without the blanks around it, and no other. It
is accepted exactly when that is nothing or a numeral below the bound of overflow. Words are
refused, and so is every text in which a character stands that no numeral has. What is accepted is
finite, the verdict depends on nothing but what is left, a blank field is zero, and an entry that is
also taken as a degree is the same number. -/
theorem coefficientOf_verdict (entry : String) :
    (∀ result, coefficientOf entry = result ↔
      ∃ typed : String, Trims entry.toList typed.toList ∧ EntryVerdict typed result) ∧
    (∀ typed : String, Trims entry.toList typed.toList →
      ((∃ value, coefficientOf entry = .ok value) ↔
        typed = "" ∨ ∃ d, WrittenNumeral d typed.toList ∧ |d.toRat| < overflowBound) ∧
      (∀ (negative : Bool) (sign word : List Char), WrittenSign negative sign →
        Reads "inf" word ∨ Reads "infinity" word ∨ Reads "nan" word →
        typed.toList = sign ++ word → coefficientOf entry = .error ⟨typed⟩) ∧
      (∀ c ∈ typed.toList, ¬ IsNumeralChar c → coefficientOf entry = .error ⟨typed⟩)) ∧
    (∀ value, coefficientOf entry = .ok value → value.isFinite = true) ∧
    (∀ (other : String) (typed : List Char), Trims entry.toList typed → Trims other.toList typed →
      coefficientOf other = coefficientOf entry) ∧
    (∀ field : Field, field.entry = entry → field.isBlank = true →
      coefficientOf entry = .ok (.zero false)) ∧
    (∀ (bounds : DegreeBounds) (degree : Degree) (value : Binary64),
      Degree.ofText bounds entry = .ok degree → coefficientOf entry = .ok value →
        value.toRat = degree.value.toNat) := by
  refine ⟨?_, ?_, fun _ => isFinite_of_coefficientOf, ?_, ?_, fun _ _ _ => toRat_eq_of_ofText⟩
  · intro result
    simp only [Degree.trims_iff, exists_eq_left, coefficientOf_eq_iff]
  · intro typed htrims
    obtain rfl := Degree.trims_iff.1 htrims
    refine ⟨exists_coefficientOf_eq_ok_iff.trans resolves_iff, ?_, ?_⟩
    · exact fun _ _ _ => coefficientOf_of_word
    · exact fun _ => coefficientOf_of_foreign_char
  · intro other typed htrims hother
    have hsame : Text.trimmed other = Text.trimmed entry := by
      rw [Text.trimmed, hother.trim_eq, Text.trimmed, htrims.trim_eq]
    simp only [coefficientOf, hsame]
  · rintro field rfl hblank
    exact coefficientOf_eq_ok_iff.2 (.inl ⟨beq_iff_eq.1 hblank, rfl⟩)

/-- Far below the least double with a sign, a word in mixed letters, a hexadecimal number, a field
filled with blanks of two kinds, and a number taken as a degree as well. -/
theorem coefficientOf_of_hard_entries :
    coefficientOf "\u3000-1e-400\n" = .ok (.zero true) ∧
      coefficientOf " +iNFinity" = .error ⟨"+iNFinity"⟩ ∧
      coefficientOf "0x1F" = .error ⟨"0x1F"⟩ ∧
      coefficientOf ((Field.ofName ⟨2⟩).withEntry " \u00a0").entry = .ok (.zero false) ∧
      Degree.ofText ⟨3, 9⟩ " .3e1" = .ok ⟨3⟩ ∧ coefficientOf " .3e1" = .ok (.ofNat 3) ∧
      (Binary64.ofNat 3).toRat = (3 : UInt32).toNat := by
  have htrims {entry typed : String} (h : Text.trim entry.toList = typed.toList) :
      Trims entry.toList typed.toList := Text.trim_eq_iff.1 h
  have htiny : WrittenNumeral ⟨true, 1, -400⟩ "-1e-400".toList :=
    Decimal.ofNumeral?_eq_some_iff.1 (by decide)
  have hzero : Decimal.toBinary64 ⟨true, 1, -400⟩ = .zero true := by decide +kernel
  have hdegree : Degree.ofText ⟨3, 9⟩ " .3e1" = .ok ⟨3⟩ := by decide +kernel
  have hentry : coefficientOf " .3e1" = .ok (.ofNat 3) := by decide +kernel
  refine ⟨?_, ?_, ?_, ?_, hdegree, hentry,
    (coefficientOf_verdict " .3e1").2.2.2.2.2 _ _ _ hdegree hentry⟩
  · rw [← hzero]
    exact ((coefficientOf_verdict _).1 _).2 ⟨"-1e-400", htrims (by decide),
      .number htiny (Decimal.negative_toBinary64 _) (Decimal.isNearest_toBinary64 _)
        (by rw [hzero]; rfl)⟩
  · exact ((coefficientOf_verdict _).2.1 "+iNFinity" (htrims (by decide))).2.1 false ['+']
      "iNFinity".toList .plus (.inr (.inl (by decide))) (by decide)
  · exact ((coefficientOf_verdict _).2.1 "0x1F" (htrims (by decide))).2.2 'x' (by decide)
      (by simp [IsNumeralChar])
  · exact (coefficientOf_verdict _).2.2.2.2.1 _ rfl (by decide)

end CoefficientForm
