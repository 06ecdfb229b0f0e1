-- SUMMARY: What submitting a form gives, in every form that can be reached.
import CoefficientForm.Proofs.Entry
import CoefficientForm.Proofs.Form.Representation
import CoefficientForm.Proofs.Form.Slots

/-!
# Submitting a form

A form that shows fields is submitted exactly when every entry resolves. The coefficients are then
those of the entries, each at the exponent of its field. Otherwise the highest exponent with an
entry that does not resolve is named. No form that can be reached has a slot without a field or a
slot beyond its degree.
-/

namespace CoefficientForm.Form

open Coefficients (slotValue slotError?)

/-- Whether a field is shown for a name and its entry resolves. -/
def EntryResolves (form : Form) (name : FieldName) : Prop :=
  ∃ entry, form.entered? name = some entry ∧ Resolves entry

variable {form : Form} {degree : Degree}

/-! ## One slot of a form -/

theorem Shows.slotValue_eq_ok_iff (h : form.Shows degree) {name : FieldName} {value : Binary64} :
    slotValue degree form.field? name = .ok value ↔
      ∃ entry, form.entered? name = some entry ∧ coefficientOf entry = .ok value := by
  rw [Coefficients.slotValue_eq_ok_iff]
  constructor
  · rintro ⟨field, hfield, hvalue, -⟩
    exact ⟨field.entry, entered?_eq_some_iff.2 ⟨field, hfield, rfl⟩, hvalue⟩
  · rintro ⟨entry, hentry, hvalue⟩
    obtain ⟨field, hfield, rfl⟩ := entered?_eq_some_iff.1 hentry
    refine ⟨field, hfield, hvalue, ?_⟩
    rw [← h.isSome_field?_iff, hfield]
    rfl

theorem Shows.exists_slotValue_iff (h : form.Shows degree) {name : FieldName} :
    (∃ value, slotValue degree form.field? name = .ok value) ↔ form.EntryResolves name := by
  simp only [h.slotValue_eq_ok_iff]
  constructor
  · rintro ⟨value, entry, hentry, hvalue⟩
    exact ⟨entry, hentry, resolves_of_coefficientOf hvalue⟩
  · rintro ⟨entry, hentry, hresolves⟩
    obtain ⟨value, hvalue⟩ := coefficientOf_of_resolves hresolves
    exact ⟨value, entry, hentry, hvalue⟩

/-- All that can be wrong with a slot of a form is its entry. -/
theorem Shows.eq_invalidEntry_of_slotError? (h : form.Shows degree) {name : FieldName}
    {e : SubmissionError} (hname : name ∈ form.slots)
    (herror : slotError? degree form.field? name = some e) :
    ∃ entry, form.entered? name = some entry ∧ ¬ Resolves entry ∧
      e = .invalidEntry name ⟨Text.trimmed entry⟩ := by
  obtain ⟨field, hfield, -⟩ := h.exists_field ((h.mem_slots_iff name).1 hname)
  have hentry : form.entered? name = some field.entry :=
    entered?_eq_some_iff.2 ⟨field, hfield, rfl⟩
  have hresolves : ¬ Resolves field.entry := by
    intro hresolves
    rw [Coefficients.slotError?_eq_none_iff.2
      (h.exists_slotValue_iff.2 ⟨field.entry, hentry, hresolves⟩)] at herror
    cases herror
  refine ⟨field.entry, hentry, hresolves, ?_⟩
  simp only [slotError?, slotValue, hfield, coefficientOf_of_not_resolves hresolves,
    Option.some.injEq] at herror
  exact herror.symm

/-! ## Submitting -/

theorem submit_of_degree_eq_none (h : form.degree = none) : form.submit = .error .nothingShown := by
  rw [submit, h]

theorem Shows.submit_eq (h : form.Shows degree) :
    form.submit = Coefficients.ofSlots degree form.slots form.field? := by
  rw [submit, h.degree_eq]

theorem Shows.exists_submit_eq_ok_iff (h : form.Shows degree) :
    (∃ coefficients, form.submit = .ok coefficients) ↔
      ∀ name : FieldName, name.exponent ≤ degree.value → form.EntryResolves name := by
  simp only [h.submit_eq, Coefficients.exists_ofSlots_eq_ok_iff, h.mem_slots_iff,
    h.exists_slotValue_iff]

theorem Shows.of_submit_eq_ok (h : form.Shows degree) {coefficients : Coefficients}
    (hsubmit : form.submit = .ok coefficients) :
    coefficients.values.size = degree.value.toNat + 1 ∧
    ∀ name : FieldName, name.exponent ≤ degree.value →
      ∃ entry value, form.entered? name = some entry ∧ coefficientOf entry = .ok value ∧
        coefficients.get? name.exponent = some value := by
  rw [h.submit_eq] at hsubmit
  obtain ⟨hsize, hplaced, -⟩ := Coefficients.placed_of_ofSlots hsubmit
  refine ⟨by rw [hsize, Array.size_replicate, Degree.termCount], ?_⟩
  intro name hname
  obtain ⟨value, hvalue, hget⟩ := hplaced name ((h.mem_slots_iff name).2 hname)
  obtain ⟨entry, hentry, hcoefficient⟩ := h.slotValue_eq_ok_iff.1 hvalue
  exact ⟨entry, value, hentry, hcoefficient, hget⟩

/-- Coefficients are submitted when there is one for each exponent, the one that the entry in the
field of that exponent denotes. -/
theorem Shows.submit_eq_ok_iff (h : form.Shows degree) {coefficients : Coefficients} :
    form.submit = .ok coefficients ↔
      coefficients.values.size = degree.termCount ∧
      ∀ name : FieldName, name.exponent ≤ degree.value →
        ∃ entry value, form.entered? name = some entry ∧ coefficientOf entry = .ok value ∧
          coefficients.get? name.exponent = some value := by
  constructor
  · exact h.of_submit_eq_ok
  · rintro ⟨hsize, hvalues⟩
    have hresolves : ∀ name : FieldName, name.exponent ≤ degree.value →
        form.EntryResolves name := by
      intro name hname
      obtain ⟨entry, value, hentry, hvalue, -⟩ := hvalues name hname
      exact ⟨entry, hentry, resolves_of_coefficientOf hvalue⟩
    obtain ⟨submitted, hsubmit⟩ := h.exists_submit_eq_ok_iff.2 hresolves
    obtain ⟨hsubmitted, hget⟩ := h.of_submit_eq_ok hsubmit
    have hsame : ∀ exponent : UInt32, exponent ≤ degree.value →
        submitted.get? exponent = coefficients.get? exponent := by
      intro exponent hexponent
      obtain ⟨entry, value, hentry, hvalue, hat⟩ := hvalues ⟨exponent⟩ hexponent
      obtain ⟨other, read, hother, hread, hin⟩ := hget ⟨exponent⟩ hexponent
      obtain rfl : entry = other := Option.some.inj (hentry.symm.trans hother)
      obtain rfl : value = read := Except.ok.inj (hvalue.symm.trans hread)
      exact hin.trans hat.symm
    rw [hsubmit, Coefficients.ext_of_get? hsubmitted hsize hsame]

/-- Each of the coefficients is that of an entry, so each is finite. -/
theorem Shows.isFinite_of_submit (h : form.Shows degree) {coefficients : Coefficients}
    (hsubmit : form.submit = .ok coefficients) {value : Binary64}
    (hvalue : value ∈ coefficients.values) : value.isFinite = true := by
  obtain ⟨hsize, hget⟩ := h.of_submit_eq_ok hsubmit
  obtain ⟨index, hindex, rfl⟩ := Array.mem_iff_getElem.1 hvalue
  have hlt : index < degree.termCount := by
    rw [Degree.termCount, ← hsize]
    exact hindex
  have hnat : (UInt32.ofNat index).toNat = index := Degree.toNat_ofNat_of_lt_termCount hlt
  have hname : UInt32.ofNat index ≤ degree.value := by
    rw [← Degree.toNat_lt_termCount_iff, hnat]
    exact hlt
  obtain ⟨entry, read, -, hread, hat⟩ := hget ⟨UInt32.ofNat index⟩ hname
  rw [Coefficients.get?, hnat, Array.getElem?_eq_getElem hindex] at hat
  cases hat
  exact isFinite_of_coefficientOf hread

/-- The slots are walked from the highest exponent down, so it is the highest bad entry that a
refusal names. -/
theorem Shows.of_submit_eq_error (h : form.Shows degree) {e : SubmissionError}
    (hsubmit : form.submit = .error e) :
    ∃ name entry, name.exponent ≤ degree.value ∧ form.entered? name = some entry ∧
      ¬ Resolves entry ∧ e = .invalidEntry name ⟨Text.trimmed entry⟩ ∧
      ∀ higher : FieldName, name.exponent < higher.exponent → higher.exponent ≤ degree.value →
        form.EntryResolves higher := by
  rw [h.submit_eq, Coefficients.ofSlots_eq_error_iff, List.findSome?_eq_some_iff] at hsubmit
  obtain ⟨above, name, below, hslots, herror, habove⟩ := hsubmit
  have hmem : name ∈ form.slots := by
    rw [hslots]
    exact List.mem_append_right _ List.mem_cons_self
  obtain ⟨entry, hentry, hresolves, heq⟩ := h.eq_invalidEntry_of_slotError? hmem herror
  refine ⟨name, entry, (h.mem_slots_iff name).1 hmem, hentry, hresolves, heq, ?_⟩
  intro higher hlt hle
  have hhigher : higher ∈ above := by
    have hsorted : form.slots.Pairwise (fun a b => b.exponent < a.exponent) := by
      rw [h.slots_eq]
      exact List.pairwise_map.2 degree.pairwise_exponents
    have hhigher := (h.mem_slots_iff higher).2 hle
    rw [hslots] at hsorted hhigher
    rcases List.mem_append.1 hhigher with habove | hrest
    · exact habove
    · rcases List.mem_cons.1 hrest with rfl | hbelow
      · exact absurd hlt (UInt32.lt_irrefl _)
      · have hgt := List.rel_of_pairwise_cons (List.pairwise_append.1 hsorted).2.1 hbelow
        exact absurd (UInt32.lt_trans hlt hgt) (UInt32.lt_irrefl _)
  exact h.exists_slotValue_iff.1 (Coefficients.slotError?_eq_none_iff.1 (habove higher hhigher))

/-- Only a form that shows a degree is submitted. -/
theorem Consistent.shows_of_submit_eq_ok (h : form.Consistent) {coefficients : Coefficients}
    (hsubmit : form.submit = .ok coefficients) : ∃ degree, form.Shows degree := by
  refine h.resolve_left ?_
  intro hnothing
  rw [submit_of_degree_eq_none hnothing.degree_eq] at hsubmit
  cases hsubmit

/-- What submitting gives after every list of actions. Nothing is given exactly when no degree is
shown. Where one is, all entries up to it have to resolve; then the coefficients are finite, and
each is that of the entry now in the field of its exponent. Otherwise the highest exponent whose
entry does not resolve is named, with that entry. -/
theorem submit_after_empty (settings : Settings) (actions : List Action) :
    let form := (empty settings).after actions
    (form.submit = .error .nothingShown ↔ form.degree = none) ∧
    (∀ degree, form.degree = some degree →
      ((∃ coefficients, form.submit = .ok coefficients) ↔
        ∀ name : FieldName, name.exponent ≤ degree.value → form.EntryResolves name) ∧
      (∀ coefficients, form.submit = .ok coefficients →
        coefficients.values.size = degree.value.toNat + 1 ∧
        (∀ value ∈ coefficients.values, value.isFinite = true) ∧
        ∀ name : FieldName, name.exponent ≤ degree.value →
          ∃ entry value, form.entered? name = some entry ∧ coefficientOf entry = .ok value ∧
            coefficients.get? name.exponent = some value) ∧
      (∀ e, form.submit = .error e →
        ∃ name entry, name.exponent ≤ degree.value ∧ form.entered? name = some entry ∧
          ¬ Resolves entry ∧ e = .invalidEntry name ⟨Text.trimmed entry⟩ ∧
          ∀ higher : FieldName, name.exponent < higher.exponent →
            higher.exponent ≤ degree.value → form.EntryResolves higher)) ∧
    (∀ name, form.submit ≠ .error (.noField name)) ∧
    (∀ name degree, form.submit ≠ .error (.beyondDegree name degree)) := by
  intro form
  rcases consistent_after_empty settings actions with hnothing | ⟨degree, hshows⟩
  · have hsubmit : form.submit = .error .nothingShown :=
      submit_of_degree_eq_none hnothing.degree_eq
    have hdegree : form.degree = none := hnothing.degree_eq
    refine ⟨by simp [hsubmit, hdegree], ?_, by simp [hsubmit], by simp [hsubmit]⟩
    intro degree hsome
    rw [hdegree] at hsome
    cases hsome
  · have hinvalid : ∀ e, form.submit = .error e → ∃ name entry, e = .invalidEntry name entry := by
      intro e he
      obtain ⟨name, entry, -, -, -, heq, -⟩ := hshows.of_submit_eq_error he
      exact ⟨name, _, heq⟩
    have hdegree : form.degree = some degree := hshows.degree_eq
    refine ⟨?_, ?_, ?_, ?_⟩
    · constructor
      · intro he
        obtain ⟨name, entry, heq⟩ := hinvalid _ he
        cases heq
      · intro hnone
        rw [hdegree] at hnone
        cases hnone
    · intro shown hsome
      rw [hdegree] at hsome
      cases hsome
      refine ⟨hshows.exists_submit_eq_ok_iff, ?_, fun e => hshows.of_submit_eq_error⟩
      intro coefficients hok
      obtain ⟨hsize, hget⟩ := hshows.of_submit_eq_ok hok
      exact ⟨hsize, fun value => hshows.isFinite_of_submit hok, hget⟩
    · intro name he
      obtain ⟨_, _, heq⟩ := hinvalid _ he
      cases heq
    · intro name other he
      obtain ⟨_, _, heq⟩ := hinvalid _ he
      cases heq

/-- Of two entries that do not resolve, the one of the higher exponent is named. -/
theorem submit_of_two_invalid_entries :
    let form := (empty ⟨⟨1, 4⟩, false, false⟩).after
      [.typeDegree "2", .go, .enter ⟨0⟩ "x", .enter ⟨1⟩ " y "]
    form.degree = some ⟨2⟩ ∧ form.submit = .error (.invalidEntry ⟨1⟩ ⟨"y"⟩) ∧
      ∀ higher : FieldName, 1 < higher.exponent → higher.exponent ≤ 2 →
        form.EntryResolves higher := by
  intro form
  have hdegree : form.degree = some ⟨2⟩ := by decide +kernel
  have hsubmit : form.submit = .error (.invalidEntry ⟨1⟩ ⟨"y"⟩) := by decide +kernel
  obtain ⟨name, entry, -, -, -, heq, hhigher⟩ :=
    ((submit_after_empty _ _).2.1 ⟨2⟩ hdegree).2.2 _ hsubmit
  injection heq with hname
  subst hname
  exact ⟨hdegree, hsubmit, hhigher⟩

end CoefficientForm.Form
