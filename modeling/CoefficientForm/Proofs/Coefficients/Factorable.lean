-- SUMMARY: Which coefficients the factoring service takes, told from what was entered.
import CoefficientForm.Proofs.Coefficients.Query
import CoefficientForm.Proofs.Degree.Verdict
import CoefficientForm.Proofs.Form.Submission

/-!
# Coefficients for the factoring service

The service looks at the number of coefficients, then at the constant term, then at the leading
coefficient, and at nothing else. Of what was entered in a form it thus sees whether the entries of
the lowest and of the highest exponent are zero. An entry is zero when it is blank, or when the
double nearest to what it says is zero, of either sign.
-/

namespace CoefficientForm

open Binary64 (Denotes)
open Text (Trims)

theorem Binary64.sameNumber_zero_iff {x : Binary64} :
    x.sameNumber (.zero false) = true ↔ ∃ negative, x = .zero negative := by
  constructor
  · intro h
    have hsigned : x.signedRank = 0 := by
      rw [sameNumber, Bool.and_eq_true, beq_iff_eq] at h
      exact h.2
    have hrank : x.rank = 0 := by
      rw [signedRank] at hsigned
      split at hsigned <;> omega
    refine ⟨x.negative, ?_⟩
    cases x
    simp_all [zero]
  · rintro ⟨negative, rfl⟩
    cases negative <;> rfl

namespace Coefficients

/-! ## The two ends -/

/-- Whether the constant term is zero, of either sign. -/
def BeginsWithZero (coefficients : Coefficients) : Prop :=
  ∃ negative, coefficients.values[0]? = some (.zero negative)

/-- Whether the leading coefficient is zero, of either sign. -/
def EndsWithZero (coefficients : Coefficients) : Prop :=
  ∃ negative, coefficients.values.back? = some (.zero negative)

/-- The verdict of the factoring service. A zero constant term comes before a zero leading
coefficient. -/
inductive ServiceVerdict (coefficients : Coefficients) : Except Unfactorable Unit → Prop
  | lowDegree : coefficients.values.size < 3 →
      ServiceVerdict coefficients
        (.error (.lowDegree (UInt32.ofNat (coefficients.values.size - 1))))
  | zeroBegin : 3 ≤ coefficients.values.size → coefficients.BeginsWithZero →
      ServiceVerdict coefficients (.error (.zeroEnd 0))
  | zeroEnd : 3 ≤ coefficients.values.size → ¬ coefficients.BeginsWithZero →
      coefficients.EndsWithZero →
      ServiceVerdict coefficients (.error (.zeroEnd (UInt32.ofNat (coefficients.values.size - 1))))
  | taken : 3 ≤ coefficients.values.size → ¬ coefficients.BeginsWithZero →
      ¬ coefficients.EndsWithZero → ServiceVerdict coefficients (.ok ())

variable {coefficients : Coefficients} {result : Except Unfactorable Unit}

theorem isZeroAt_iff {exponent : UInt32} :
    coefficients.isZeroAt exponent = true ↔
      ∃ negative, coefficients.get? exponent = some (.zero negative) := by
  rw [isZeroAt, Option.any_eq_true]
  constructor
  · rintro ⟨value, hvalue, hzero⟩
    obtain ⟨negative, rfl⟩ := Binary64.sameNumber_zero_iff.1 hzero
    exact ⟨negative, hvalue⟩
  · rintro ⟨negative, hvalue⟩
    exact ⟨_, hvalue, Binary64.sameNumber_zero_iff.2 ⟨negative, rfl⟩⟩

theorem degree?_getD_eq (h : coefficients.values.size ≤ 2 ^ 32) :
    coefficients.degree?.getD 0 = UInt32.ofNat (coefficients.values.size - 1) := by
  rw [← toNat_degree?_getD h, UInt32.ofNat_toNat]

theorem isZeroAt_degree_iff (h : coefficients.values.size ≤ 2 ^ 32) :
    coefficients.isZeroAt (coefficients.degree?.getD 0) = true ↔ coefficients.EndsWithZero := by
  rw [isZeroAt_iff, get?, toNat_degree?_getD h, ← Array.back?_eq_getElem?]
  rfl

theorem degree_lt_two_iff (h : coefficients.values.size ≤ 2 ^ 32) :
    coefficients.degree?.getD 0 < 2 ↔ coefficients.values.size < 3 := by
  have htwo : (2 : UInt32).toNat = 2 := rfl
  rw [UInt32.lt_iff_toNat_lt, toNat_degree?_getD h, htwo]
  omega

/-! ## The verdict -/

theorem serviceVerdict_factorable (h : coefficients.values.size ≤ 2 ^ 32) :
    coefficients.ServiceVerdict coefficients.factorable := by
  have hbegin : coefficients.isZeroAt 0 = true ↔ coefficients.BeginsWithZero := isZeroAt_iff
  have hend := isZeroAt_degree_iff h
  rw [factorable]
  split
  · rename_i hlow
    rw [degree?_getD_eq h]
    exact .lowDegree ((degree_lt_two_iff h).1 hlow)
  rename_i hlow
  have hsize : 3 ≤ coefficients.values.size := Nat.not_lt.1 (mt (degree_lt_two_iff h).2 hlow)
  split
  · rename_i hzero
    exact .zeroBegin hsize (hbegin.1 hzero)
  rename_i hfirst
  split
  · rename_i hzero
    rw [degree?_getD_eq h]
    exact .zeroEnd hsize (mt hbegin.2 hfirst) (hend.1 hzero)
  · rename_i hlast
    exact .taken hsize (mt hbegin.2 hfirst) (mt hend.2 hlast)

theorem ServiceVerdict.unique {other : Except Unfactorable Unit}
    (h : coefficients.ServiceVerdict result) (hother : coefficients.ServiceVerdict other) :
    result = other := by
  cases h <;> cases hother <;> first | rfl | omega | contradiction

theorem factorable_eq_iff (h : coefficients.values.size ≤ 2 ^ 32) :
    coefficients.factorable = result ↔ coefficients.ServiceVerdict result := by
  constructor
  · rintro rfl
    exact serviceVerdict_factorable h
  · exact (serviceVerdict_factorable h).unique

theorem factorable_eq_ok_iff (h : coefficients.values.size ≤ 2 ^ 32) :
    coefficients.factorable = .ok () ↔
      3 ≤ coefficients.values.size ∧ ¬ coefficients.BeginsWithZero ∧
        ¬ coefficients.EndsWithZero := by
  rw [factorable_eq_iff h]
  constructor
  · intro hverdict
    cases hverdict with
    | taken hsize hbegin hend => exact ⟨hsize, hbegin, hend⟩
  · rintro ⟨hsize, hbegin, hend⟩
    exact .taken hsize hbegin hend

theorem factorable_eq_lowDegree_iff (h : coefficients.values.size ≤ 2 ^ 32) {degree : UInt32} :
    coefficients.factorable = .error (.lowDegree degree) ↔
      coefficients.values.size < 3 ∧ degree = UInt32.ofNat (coefficients.values.size - 1) := by
  rw [factorable_eq_iff h]
  constructor
  · intro hverdict
    cases hverdict with
    | lowDegree hlow => exact ⟨hlow, rfl⟩
  · rintro ⟨hlow, rfl⟩
    exact .lowDegree hlow

theorem factorable_eq_zeroEnd_iff (h : coefficients.values.size ≤ 2 ^ 32) {exponent : UInt32} :
    coefficients.factorable = .error (.zeroEnd exponent) ↔
      3 ≤ coefficients.values.size ∧
        (coefficients.BeginsWithZero ∧ exponent = 0 ∨
          ¬ coefficients.BeginsWithZero ∧ coefficients.EndsWithZero ∧
            exponent = UInt32.ofNat (coefficients.values.size - 1)) := by
  rw [factorable_eq_iff h]
  constructor
  · intro hverdict
    cases hverdict with
    | zeroBegin hsize hbegin => exact ⟨hsize, .inl ⟨hbegin, rfl⟩⟩
    | zeroEnd hsize hbegin hend => exact ⟨hsize, .inr ⟨hbegin, hend, rfl⟩⟩
  · rintro ⟨hsize, ⟨hbegin, rfl⟩ | ⟨hbegin, hend, rfl⟩⟩
    · exact .zeroBegin hsize hbegin
    · exact .zeroEnd hsize hbegin hend

/-- Nothing but the number of coefficients and the two ends is looked at. -/
theorem ServiceVerdict.congr {other : Coefficients} (h : coefficients.ServiceVerdict result)
    (hsize : other.values.size = coefficients.values.size)
    (hfirst : other.values[0]? = coefficients.values[0]?)
    (hlast : other.values.back? = coefficients.values.back?) : other.ServiceVerdict result := by
  have hbegin : other.BeginsWithZero ↔ coefficients.BeginsWithZero := by
    rw [BeginsWithZero, hfirst, BeginsWithZero]
  have hend : other.EndsWithZero ↔ coefficients.EndsWithZero := by
    rw [EndsWithZero, hlast, EndsWithZero]
  cases h with
  | lowDegree hlow => exact hsize ▸ .lowDegree (hsize ▸ hlow)
  | zeroBegin hthree hzero => exact .zeroBegin (hsize ▸ hthree) (hbegin.2 hzero)
  | zeroEnd hthree hnone hzero =>
      exact hsize ▸ .zeroEnd (hsize ▸ hthree) (mt hbegin.1 hnone) (hend.2 hzero)
  | taken hthree hnone hnot => exact .taken (hsize ▸ hthree) (mt hbegin.1 hnone) (mt hend.1 hnot)

end Coefficients

/-! ## Entries that are zero -/

/-- Whether an entry is blank, or says a number that has zero as its nearest double. -/
def DenotesZero (entry : String) : Prop :=
  ∃ typed : String, Trims entry.toList typed.toList ∧
    (typed = "" ∨ ∃ negative, Denotes typed.toList (.zero negative))

theorem exists_coefficientOf_eq_zero_iff {entry : String} :
    (∃ negative, coefficientOf entry = .ok (.zero negative)) ↔ DenotesZero entry := by
  simp only [DenotesZero, Degree.trims_iff, exists_eq_left, coefficientOf_eq_ok_iff,
    Binary64.ofText?_eq_some_iff]
  constructor
  · rintro ⟨negative, ⟨hblank, -⟩ | ⟨-, hzero, -⟩⟩
    · exact .inl hblank
    · exact .inr ⟨negative, hzero⟩
  · rintro (hblank | ⟨negative, hzero⟩)
    · exact ⟨false, .inl ⟨hblank, rfl⟩⟩
    · refine ⟨negative, .inr ⟨?_, hzero, rfl⟩⟩
      intro hblank
      rw [hblank] at hzero
      exact Degree.not_denotes_empty hzero

namespace Form

variable {form : Form} {degree : Degree} {coefficients : Coefficients}

/-- Whether a field is shown for a name and its entry is zero. -/
def ZeroEntered (form : Form) (name : FieldName) : Prop :=
  ∃ entry, form.entered? name = some entry ∧ DenotesZero entry

theorem Shows.size_le_of_submit (h : form.Shows degree) (hsubmit : form.submit = .ok coefficients) :
    coefficients.values.size ≤ 2 ^ 32 := by
  rw [(h.of_submit_eq_ok hsubmit).1]
  exact degree.value.toNat_lt

theorem Shows.exists_get?_eq_zero_iff (h : form.Shows degree)
    (hsubmit : form.submit = .ok coefficients) {name : FieldName}
    (hname : name.exponent ≤ degree.value) :
    (∃ negative, coefficients.get? name.exponent = some (.zero negative)) ↔
      form.ZeroEntered name := by
  obtain ⟨entry, value, hentry, hvalue, hget⟩ := (h.of_submit_eq_ok hsubmit).2 name hname
  simp only [ZeroEntered, hentry, Option.some.injEq, exists_eq_left',
    ← exists_coefficientOf_eq_zero_iff, hvalue, hget, Except.ok.injEq]

theorem Shows.beginsWithZero_iff (h : form.Shows degree)
    (hsubmit : form.submit = .ok coefficients) :
    coefficients.BeginsWithZero ↔ form.ZeroEntered ⟨0⟩ :=
  h.exists_get?_eq_zero_iff hsubmit (UInt32.zero_le)

theorem Shows.endsWithZero_iff (h : form.Shows degree)
    (hsubmit : form.submit = .ok coefficients) :
    coefficients.EndsWithZero ↔ form.ZeroEntered ⟨degree.value⟩ := by
  have hsize := (h.of_submit_eq_ok hsubmit).1
  rw [← h.exists_get?_eq_zero_iff hsubmit (UInt32.le_refl _), Coefficients.EndsWithZero,
    Array.back?_eq_getElem?, hsize, Nat.add_sub_cancel]
  rfl

/-- What the factoring service says to what a form submits, told from the degree and two entries. -/
theorem Shows.factorable_iff (h : form.Shows degree) (hsubmit : form.submit = .ok coefficients) :
    (coefficients.factorable = .error (.lowDegree degree.value) ↔ degree.value < 2) ∧
    (2 ≤ degree.value →
      (coefficients.factorable = .error (.zeroEnd 0) ↔ form.ZeroEntered ⟨0⟩) ∧
      (coefficients.factorable = .error (.zeroEnd degree.value) ↔
        ¬ form.ZeroEntered ⟨0⟩ ∧ form.ZeroEntered ⟨degree.value⟩) ∧
      (coefficients.factorable = .ok () ↔
        ¬ form.ZeroEntered ⟨0⟩ ∧ ¬ form.ZeroEntered ⟨degree.value⟩)) := by
  have hsize : coefficients.values.size = degree.value.toNat + 1 := (h.of_submit_eq_ok hsubmit).1
  have hbound := h.size_le_of_submit hsubmit
  have hdegree : UInt32.ofNat (coefficients.values.size - 1) = degree.value := by
    rw [hsize, Nat.add_sub_cancel, UInt32.ofNat_toNat]
  have htwo : (2 : UInt32).toNat = 2 := rfl
  rw [Coefficients.factorable_eq_lowDegree_iff hbound, Coefficients.factorable_eq_ok_iff hbound,
    Coefficients.factorable_eq_zeroEnd_iff hbound, Coefficients.factorable_eq_zeroEnd_iff hbound,
    hdegree, h.beginsWithZero_iff hsubmit, h.endsWithZero_iff hsubmit, hsize,
    UInt32.lt_iff_toNat_lt, UInt32.le_iff_toNat_le, htwo]
  refine ⟨by rw [and_iff_left rfl]; omega, ?_⟩
  intro hle
  have hthree : 3 ≤ degree.value.toNat + 1 := Nat.succ_le_succ hle
  have hne : ¬ degree.value = 0 := by
    intro hzero
    rw [hzero] at hle
    exact absurd hle (by decide)
  simp [hthree, hne, eq_comm (a := (0 : UInt32))]

end Form

/-! ## All coefficients and all forms -/

/-- What the factoring service says, to any coefficients and to those of any form. Too few of them
are refused first, then a zero constant term, then a zero leading coefficient. So coefficients are
taken exactly when there are three at least and no zero at either end, whatever stands between.
Those of a form are judged by its degree and its entries for the lowest and the highest exponent,
and a form that takes no degree below 2 never submits too few. -/
theorem factorable_verdict :
    (∀ coefficients : Coefficients, coefficients.values.size ≤ 2 ^ 32 →
      (∀ result, coefficients.factorable = result ↔ coefficients.ServiceVerdict result) ∧
      (coefficients.factorable = .ok () ↔
        3 ≤ coefficients.values.size ∧ ¬ coefficients.BeginsWithZero ∧
          ¬ coefficients.EndsWithZero) ∧
      ∀ other : Coefficients, other.values.size = coefficients.values.size →
        other.values[0]? = coefficients.values[0]? →
        other.values.back? = coefficients.values.back? →
        other.factorable = coefficients.factorable) ∧
    ∀ (settings : Settings) (actions : List Form.Action),
      let form := (Form.empty settings).after actions
      (∀ degree coefficients, form.degree = some degree → form.submit = .ok coefficients →
        (coefficients.factorable = .error (.lowDegree degree.value) ↔ degree.value < 2) ∧
        (2 ≤ degree.value →
          (coefficients.factorable = .error (.zeroEnd 0) ↔ form.ZeroEntered ⟨0⟩) ∧
          (coefficients.factorable = .error (.zeroEnd degree.value) ↔
            ¬ form.ZeroEntered ⟨0⟩ ∧ form.ZeroEntered ⟨degree.value⟩) ∧
          (coefficients.factorable = .ok () ↔
            ¬ form.ZeroEntered ⟨0⟩ ∧ ¬ form.ZeroEntered ⟨degree.value⟩))) ∧
      (2 ≤ settings.bounds.min → ∀ coefficients degree, form.submit = .ok coefficients →
        coefficients.factorable ≠ .error (.lowDegree degree)) := by
  refine ⟨?_, ?_⟩
  · intro coefficients h
    refine ⟨fun _ => Coefficients.factorable_eq_iff h, Coefficients.factorable_eq_ok_iff h, ?_⟩
    intro other hsize hfirst hlast
    rw [Coefficients.factorable_eq_iff (hsize ▸ h)]
    exact (Coefficients.serviceVerdict_factorable h).congr hsize hfirst hlast
  · intro settings actions form
    have hconsistent := Form.consistent_after_empty settings actions
    refine ⟨?_, ?_⟩
    · intro degree coefficients hdegree hsubmit
      obtain ⟨shown, hshows⟩ := hconsistent.shows_of_submit_eq_ok hsubmit
      obtain rfl : shown = degree := Option.some.inj (hshows.degree_eq.symm.trans hdegree)
      exact hshows.factorable_iff hsubmit
    · intro hmin coefficients degree hsubmit hlow
      obtain ⟨shown, hshows⟩ := hconsistent.shows_of_submit_eq_ok hsubmit
      have hsettings : form.settings = settings := Form.settings_after (.empty settings) actions
      have hbound := hshows.size_le_of_submit hsubmit
      have hfew := ((Coefficients.factorable_eq_lowDegree_iff hbound).1 hlow).1
      rw [(hshows.of_submit_eq_ok hsubmit).1] at hfew
      have hle := UInt32.le_iff_toNat_le.1 (UInt32.le_trans hmin (hsettings ▸ hshows.min_le))
      have htwo : (2 : UInt32).toNat = 2 := rfl
      omega

/-- NaNs at the ends and a zero between them are taken. Of a number too small for a double and a
negative zero, both entered, the former is named; and when it is not zero, the latter. -/
theorem factorable_of_nans_and_entered_zeros :
    let nans : Coefficients := ⟨#[.nan false, .zero false, .nan true]⟩
    let zeros := (Form.empty .standard).after
      [.typeDegree "3", .go, .enter ⟨3⟩ "-0", .enter ⟨0⟩ " 1e-400 "]
    let leading := (Form.empty .standard).after
      [.typeDegree "3", .go, .enter ⟨3⟩ "-0", .enter ⟨0⟩ "1"]
    nans.factorable = .ok () ∧
      (∃ coefficients, zeros.submit = .ok coefficients ∧ zeros.ZeroEntered ⟨0⟩ ∧
        coefficients.factorable = .error (.zeroEnd 0)) ∧
      ∃ coefficients, leading.submit = .ok coefficients ∧
        (¬ leading.ZeroEntered ⟨0⟩ ∧ leading.ZeroEntered ⟨3⟩) ∧
        coefficients.factorable = .error (.zeroEnd 3) ∧
        coefficients.factorable ≠ .error (.lowDegree 3) := by
  intro nans zeros leading
  have hnans : nans.factorable = .ok () := by
    apply ((factorable_verdict.1 nans (by decide)).2.1).2
    refine ⟨by decide, ?_, ?_⟩ <;> rintro ⟨negative, hzero⟩ <;> cases negative <;>
      exact absurd hzero (by decide)
  have hzeros : zeros.submit =
      .ok ⟨#[.zero false, .zero false, .zero false, .zero true]⟩ := by decide +kernel
  have hleading : leading.submit =
      .ok ⟨#[.ofNat 1, .zero false, .zero false, .zero true]⟩ := by decide +kernel
  obtain ⟨hshown, hmin⟩ := factorable_verdict.2 .standard
    [.typeDegree "3", .go, .enter ⟨3⟩ "-0", .enter ⟨0⟩ "1"]
  have hfirst := ((factorable_verdict.2 .standard
    [.typeDegree "3", .go, .enter ⟨3⟩ "-0", .enter ⟨0⟩ " 1e-400 "]).1 ⟨3⟩ _
    (by decide +kernel) hzeros).2 (by decide)
  have hlast := (hshown ⟨3⟩ _ (by decide +kernel) hleading).2 (by decide)
  refine ⟨hnans, ⟨_, hzeros, hfirst.1.1 (by decide), by decide⟩, _, hleading,
    hlast.2.1.1 (by decide +kernel), by decide +kernel, ?_⟩
  exact hmin (by decide) _ _ hleading

end CoefficientForm
