-- SUMMARY: All views of the coefficients of a form agree with what it shows.
import Mathlib.Data.List.Sort
import CoefficientForm.Proofs.Coefficients.Factorable
import CoefficientForm.Proofs.Form.History

/-!
# Views of coefficients

Coefficients are offered by exponent in three ways: the constant term first, the leading term first,
and as a table. An exponent has 32 bits, and so the views agree as long as there are no more
coefficients than exponents. Further coefficients would stand under exponents that are already taken.
A form never submits so many, because its degree has 32 bits as well.
-/

namespace CoefficientForm

namespace Coefficients

variable {coefficients : Coefficients}

/-! ## The ascending view -/

theorem lt_size_of_mem_zipIdx {value : Binary64} {index : Nat}
    (h : (value, index) ∈ coefficients.values.toList.zipIdx) : index < coefficients.values.size := by
  have hlt := (List.mem_zipIdx' h).1
  rwa [Array.length_toList] at hlt

theorem toNat_ofNat_of_lt_size (h : coefficients.values.size ≤ 2 ^ 32) {index : Nat}
    (hindex : index < coefficients.values.size) : (UInt32.ofNat index).toNat = index :=
  UInt32.toNat_ofNat_of_lt' (Nat.lt_of_lt_of_le hindex h)

/-- As long as the exponents have 32 bits, they are the indices. -/
theorem map_swap_ascending (h : coefficients.values.size ≤ 2 ^ 32) :
    coefficients.ascending.map (fun (exponent, value) => (value, exponent.toNat)) =
      coefficients.values.toList.zipIdx := by
  rw [ascending, List.map_map]
  conv_rhs => rw [← List.map_id coefficients.values.toList.zipIdx]
  apply List.map_congr_left
  rintro ⟨value, index⟩ hmem
  exact congrArg (Prod.mk value) (toNat_ofNat_of_lt_size h (lt_size_of_mem_zipIdx hmem))

theorem map_toNat_ascending (h : coefficients.values.size ≤ 2 ^ 32) :
    coefficients.ascending.map (fun term => term.1.toNat) =
      List.range coefficients.values.size := by
  have hindices := congrArg (List.map Prod.snd) (map_swap_ascending h)
  rwa [List.map_map, List.zipIdx_map_snd, Array.length_toList, ← List.range_eq_range'] at hindices

theorem pairwise_ascending (h : coefficients.values.size ≤ 2 ^ 32) :
    coefficients.ascending.Pairwise (fun a b => a.1 < b.1) := by
  have hsorted : (coefficients.ascending.map (fun term => term.1.toNat)).Pairwise (· < ·) := by
    rw [map_toNat_ascending h]
    exact List.pairwise_lt_range
  exact (List.pairwise_map.1 hsorted).imp UInt32.lt_iff_toNat_lt.2

theorem mem_ascending_iff (h : coefficients.values.size ≤ 2 ^ 32) {exponent : UInt32}
    {value : Binary64} :
    (exponent, value) ∈ coefficients.ascending ↔ coefficients.get? exponent = some value := by
  rw [get?, ← Array.getElem?_toList, ascending, List.mem_map]
  constructor
  · rintro ⟨⟨entry, index⟩, hmem, heq⟩
    obtain ⟨rfl, rfl⟩ := Prod.mk.inj heq
    rw [toNat_ofNat_of_lt_size h (lt_size_of_mem_zipIdx hmem)]
    exact List.mem_zipIdx_iff_getElem?.1 hmem
  · intro hget
    exact ⟨(value, exponent.toNat), List.mem_zipIdx_iff_getElem?.2 hget,
      congrArg (·, value) (UInt32.ofNat_toNat)⟩

/-! ## The table -/

/-- No exponent comes twice, so no coefficient takes the place of another. -/
theorem getElem?_byExponent (h : coefficients.values.size ≤ 2 ^ 32) (exponent : UInt32) :
    coefficients.byExponent[exponent]? = coefficients.get? exponent := by
  have hlisted : (Std.TreeMap.ofList coefficients.ascending).Equiv coefficients.byExponent :=
    Std.TreeMap.ofList_equiv_foldl
  rw [← hlisted.getElem?_eq]
  cases hget : coefficients.get? exponent with
  | some value =>
      have hdistinct : coefficients.ascending.Pairwise (fun a b => ¬ compare a.1 b.1 = .eq) := by
        apply (pairwise_ascending h).imp
        intro a b hlt heq
        exact UInt32.ne_of_lt hlt (Std.LawfulEqOrd.eq_of_compare heq)
      exact Std.TreeMap.getElem?_ofList_of_mem Std.ReflOrd.compare_self hdistinct
        ((mem_ascending_iff h).2 hget)
  | none =>
      apply Std.TreeMap.getElem?_ofList_of_contains_eq_false
      rw [List.contains_eq_mem, decide_eq_false_iff_not, List.mem_map]
      rintro ⟨⟨other, value⟩, hmem, rfl⟩
      rw [(mem_ascending_iff h).1 hmem] at hget
      cases hget

theorem toList_byExponent (h : coefficients.values.size ≤ 2 ^ 32) :
    coefficients.byExponent.toList = coefficients.ascending := by
  have hascending := pairwise_ascending h
  have htable : coefficients.byExponent.toList.Pairwise (fun a b => a.1 < b.1) :=
    Std.TreeMap.ordered_keys_toList.imp Std.compare_eq_lt.1
  have hnodup {terms : List (UInt32 × Binary64)} (hterms : terms.Pairwise fun a b => a.1 < b.1) :
      terms.Nodup := by
    apply hterms.imp
    rintro a _ hlt rfl
    exact UInt32.lt_irrefl _ hlt
  apply List.Perm.eq_of_pairwise _ htable hascending
  · rw [List.perm_ext_iff_of_nodup (hnodup htable) (hnodup hascending)]
    rintro ⟨exponent, value⟩
    rw [Std.TreeMap.mem_toList_iff_getElem?_eq_some, getElem?_byExponent h, mem_ascending_iff h]
  · intro a b _ _ hlt hgt
    exact absurd hgt (UInt32.lt_asymm hlt)

theorem mem_byExponent_iff (h : coefficients.values.size ≤ 2 ^ 32) {exponent : UInt32} :
    exponent ∈ coefficients.byExponent ↔ exponent.toNat < coefficients.values.size := by
  rw [Std.TreeMap.mem_iff_isSome_getElem?, getElem?_byExponent h, get?, isSome_getElem?]

theorem size_byExponent (h : coefficients.values.size ≤ 2 ^ 32) :
    coefficients.byExponent.size = coefficients.values.size := by
  rw [← Std.TreeMap.length_toList, toList_byExponent h, ascending, List.length_map,
    List.length_zipIdx, Array.length_toList]

end Coefficients

/-! ## What a form submits -/

namespace Form

variable {form : Form} {degree : Degree} {coefficients : Coefficients}

theorem Shows.degree?_of_submit (h : form.Shows degree) (hsubmit : form.submit = .ok coefficients) :
    coefficients.degree? = some degree.value := by
  have hsize := (h.of_submit_eq_ok hsubmit).1
  rw [Coefficients.degree?, hsize, if_neg (Nat.succ_ne_zero _), Nat.add_sub_cancel,
    UInt32.ofNat_toNat]

theorem Shows.isSome_get?_iff (h : form.Shows degree) (hsubmit : form.submit = .ok coefficients)
    {exponent : UInt32} :
    (coefficients.get? exponent).isSome = true ↔ exponent ≤ degree.value := by
  have hsize : coefficients.values.size = degree.termCount := (h.of_submit_eq_ok hsubmit).1
  rw [Coefficients.get?, isSome_getElem?, hsize, Degree.toNat_lt_termCount_iff]

/-- The coefficient at an exponent is the one that the entry in its field denotes. -/
theorem Shows.get?_eq_some_iff (h : form.Shows degree) (hsubmit : form.submit = .ok coefficients)
    {exponent : UInt32} {value : Binary64} :
    coefficients.get? exponent = some value ↔
      ∃ entry, form.entered? ⟨exponent⟩ = some entry ∧ coefficientOf entry = .ok value := by
  have hread := (h.of_submit_eq_ok hsubmit).2
  constructor
  · intro hget
    have hle : exponent ≤ degree.value := by
      rw [← h.isSome_get?_iff hsubmit, hget]
      rfl
    obtain ⟨entry, read, hentry, hvalue, hat⟩ := hread ⟨exponent⟩ hle
    obtain rfl : value = read := Option.some.inj (hget.symm.trans hat)
    exact ⟨entry, hentry, hvalue⟩
  · rintro ⟨entry, hentry, hvalue⟩
    obtain ⟨field, hfield, rfl⟩ := entered?_eq_some_iff.1 hentry
    have hle : exponent ≤ degree.value := by
      rw [← h.isSome_field?_iff ⟨exponent⟩, hfield]
      rfl
    obtain ⟨entry, read, hother, hread, hat⟩ := hread ⟨exponent⟩ hle
    obtain rfl : field.entry = entry := Option.some.inj (hentry.symm.trans hother)
    obtain rfl : value = read := Except.ok.inj (hvalue.symm.trans hread)
    exact hat

/-- The slots and the descending view walk the same exponents downwards. -/
theorem Shows.map_fst_descending (h : form.Shows degree)
    (hsubmit : form.submit = .ok coefficients) :
    coefficients.descending.map Prod.fst = form.slots.map FieldName.exponent := by
  have hsize : coefficients.values.size = degree.termCount := (h.of_submit_eq_ok hsubmit).1
  have hexponents : coefficients.ascending.map Prod.fst =
      (List.range degree.termCount).map UInt32.ofNat := by
    rw [← hsize, List.range_eq_range', ← Array.length_toList, ← List.zipIdx_map_snd,
      Coefficients.ascending, List.map_map, List.map_map]
    rfl
  have hslots : form.slots.map FieldName.exponent = degree.exponents := by
    rw [h.slots_eq, List.map_map]
    exact List.map_id _
  rw [Coefficients.descending, List.map_reverse, hexponents, hslots, Degree.exponents,
    List.map_reverse]

/-! ## All views -/

/-- Whatever a form submits, and however high its degree, all views of it agree with the form. The
degree is the one that is shown. The leading term comes first as the first slot does, and with each
exponent stands what the entry in its field denotes. The table has one coefficient for each exponent
up to the degree, the one that is also found by exponent, and in ascending order it is the
descending view turned round, with the indices of the coefficients for its exponents. -/
theorem views_after_empty (settings : Settings) (actions : List Action) :
    let form := (empty settings).after actions
    ∀ degree coefficients, form.degree = some degree → form.submit = .ok coefficients →
      (coefficients.degree? = some degree.value ∧
        coefficients.values.size = degree.value.toNat + 1) ∧
      (coefficients.descending.map Prod.fst = form.slots.map FieldName.exponent ∧
        ∀ exponent value, (exponent, value) ∈ coefficients.descending ↔
          ∃ entry, form.entered? ⟨exponent⟩ = some entry ∧ coefficientOf entry = .ok value) ∧
      (coefficients.byExponent.size = degree.value.toNat + 1 ∧
        (∀ exponent, exponent ∈ coefficients.byExponent ↔ exponent ≤ degree.value) ∧
        ∀ exponent, coefficients.byExponent[exponent]? = coefficients.get? exponent) ∧
      (∀ exponent, (coefficients.get? exponent).isSome = true ↔ exponent ≤ degree.value) ∧
      (coefficients.descending.reverse = coefficients.byExponent.toList ∧
        coefficients.byExponent.toList.map (fun (exponent, value) => (value, exponent.toNat)) =
          coefficients.values.toList.zipIdx) := by
  intro form degree coefficients hdegree hsubmit
  obtain ⟨shown, hshows⟩ :=
    (consistent_after_empty settings actions).shows_of_submit_eq_ok hsubmit
  obtain rfl : shown = degree := Option.some.inj (hshows.degree_eq.symm.trans hdegree)
  have hsize := (hshows.of_submit_eq_ok hsubmit).1
  have hbound := hshows.size_le_of_submit hsubmit
  have htable := Coefficients.toList_byExponent hbound
  refine ⟨⟨hshows.degree?_of_submit hsubmit, hsize⟩,
    ⟨hshows.map_fst_descending hsubmit, ?_⟩,
    ⟨(Coefficients.size_byExponent hbound).trans hsize, ?_,
      Coefficients.getElem?_byExponent hbound⟩,
    fun _ => hshows.isSome_get?_iff hsubmit, ?_, ?_⟩
  · intro exponent value
    rw [Coefficients.descending, List.mem_reverse, Coefficients.mem_ascending_iff hbound,
      hshows.get?_eq_some_iff hsubmit]
  · intro exponent
    rw [Coefficients.mem_byExponent_iff hbound, hsize, Nat.lt_succ_iff, UInt32.le_iff_toNat_le]
  · rw [Coefficients.descending, List.reverse_reverse, htable]
  · rw [htable, Coefficients.map_swap_ascending hbound]

/-- Fields that are shown for the first time are blank, and blank fields can be submitted. -/
theorem exists_submit_acceptDegree (hcheck : form.checkDegree = .ok degree)
    (hkeep : form.settings.keepEntries = false) :
    ∃ coefficients, (form.acceptDegree degree).submit = .ok coefficients := by
  rw [(shows_acceptDegree hcheck).exists_submit_eq_ok_iff]
  intro name hname
  refine ⟨"", ?_, resolves_empty⟩
  rw [entered?_acceptDegree, if_pos hname, initialEntry_of_discarded hkeep]

/-- At the largest degree there are as many coefficients as exponents, and no two of them share one.
A form of degree 2 has the entry of its first slot first in one view, and last in the table. -/
theorem views_of_largest_degree_and_filled :
    let largest := (empty ⟨⟨1, 4294967295⟩, false, false⟩).after [.typeDegree "4294967295", .go]
    let filled := (empty ⟨⟨1, 4⟩, false, false⟩).after
      [.typeDegree "2", .go, .enter ⟨2⟩ " 7 ", .enter ⟨0⟩ "-0"]
    (largest.degree = some ⟨4294967295⟩ ∧
      ∃ coefficients, largest.submit = .ok coefficients ∧
        coefficients.degree? = some 4294967295 ∧ coefficients.byExponent.size = 4294967296) ∧
    ∃ coefficients, filled.submit = .ok coefficients ∧
      coefficients.descending = [(2, .ofNat 7), (1, .zero false), (0, .zero true)] ∧
      coefficients.byExponent.toList = [(0, .zero true), (1, .zero false), (2, .ofNat 7)] := by
  intro largest filled
  have hcheck : ((empty ⟨⟨1, 4294967295⟩, false, false⟩).withDegreeText "4294967295").checkDegree =
      .ok ⟨4294967295⟩ := by decide +kernel
  have hafter : largest = ((empty ⟨⟨1, 4294967295⟩, false, false⟩).withDegreeText
      "4294967295").acceptDegree ⟨4294967295⟩ := step_go_of_ok hcheck
  have hdegree : largest.degree = some ⟨4294967295⟩ := by
    rw [hafter, acceptDegree]
  have hlargest : ∃ coefficients, largest.submit = .ok coefficients := by
    rw [hafter]
    exact exists_submit_acceptDegree hcheck rfl
  have hfilled : filled.submit = .ok ⟨#[.zero true, .zero false, .ofNat 7]⟩ := by decide +kernel
  obtain ⟨coefficients, hsubmit⟩ := hlargest
  obtain ⟨⟨hvalue, -⟩, -, ⟨hsize, -⟩, -⟩ := views_after_empty _ _ _ coefficients hdegree hsubmit
  obtain ⟨-, -, -, -, hreverse, -⟩ :=
    views_after_empty _ _ ⟨2⟩ _ (by decide +kernel) hfilled
  refine ⟨⟨hdegree, coefficients, hsubmit, hvalue, hsize⟩, _, hfilled, by decide +kernel, ?_⟩
  rw [← hreverse]
  decide +kernel

end Form

end CoefficientForm
