-- SUMMARY: Degree, slots and fields of a form belong together after every list of actions.
import CoefficientForm.Proofs.Degree.Verdict
import CoefficientForm.Proofs.Form.Step

/-!
# What a form shows

Degree, slots and fields are stored apart. Together they either show nothing, or they show one
field for each exponent up to a degree within the bounds, the highest first. Every action keeps
this.
-/

namespace CoefficientForm.Form

/-- Whether a form shows the fields for a degree. -/
structure Shows (form : Form) (degree : Degree) : Prop where
  degree_eq : form.degree = some degree
  min_le : form.settings.bounds.min ≤ degree.value
  le_max : degree.value ≤ form.settings.bounds.max
  slots_eq : form.slots = degree.exponents.map FieldName.mk
  size_eq : form.fields.size = degree.termCount
  isFor : ∀ name field, form.field? name = some field → field.IsFor name

/-- Whether degree, slots and fields belong together. -/
def Consistent (form : Form) : Prop :=
  form.ShowsNothing ∨ ∃ degree, form.Shows degree

/-! ## What each step keeps -/

theorem ShowsNothing.of_sameFields {form other : Form} (h : form.ShowsNothing)
    (hsame : SameFields form other) : other.ShowsNothing :=
  ⟨hsame.degree_eq.trans h.degree_eq, hsame.slots_eq.trans h.slots_eq,
    hsame.fields_eq.trans h.fields_eq⟩

theorem Shows.of_sameFields {form other : Form} {degree : Degree} (h : form.Shows degree)
    (hsettings : other.settings = form.settings) (hsame : SameFields form other) :
    other.Shows degree where
  degree_eq := hsame.degree_eq.trans h.degree_eq
  min_le := hsettings ▸ h.min_le
  le_max := hsettings ▸ h.le_max
  slots_eq := hsame.slots_eq.trans h.slots_eq
  size_eq := hsame.fields_eq ▸ h.size_eq
  isFor := by
    intro name field hfield
    rw [field?_eq_of_fields hsame.fields_eq] at hfield
    exact h.isFor name field hfield

theorem shows_acceptDegree {form : Form} {degree : Degree} (h : form.checkDegree = .ok degree) :
    (form.acceptDegree degree).Shows degree where
  degree_eq := rfl
  min_le := (Degree.bounds_of_ofText h).1
  le_max := (Degree.bounds_of_ofText h).2
  slots_eq := rfl
  size_eq := Array.size_ofFn
  isFor := by
    intro name field hfield
    rw [field?_acceptDegree] at hfield
    split at hfield
    · cases hfield
      exact (Field.isFor_ofName name).withEntry _
    · cases hfield

theorem Shows.enter {form after : Form} {degree : Degree} {name : FieldName} {entry : String}
    (h : form.Shows degree) (henter : form.enter name entry = .ok after) :
    after.Shows degree := by
  obtain ⟨old, hold, hafter⟩ := enter_eq_ok_iff.1 henter
  have hfields : ∀ other field, after.field? other = some field → field.IsFor other := by
    intro other field hfield
    rw [field?_of_enter henter, hold] at hfield
    split at hfield
    · rename_i hname
      cases hfield
      exact hname ▸ (h.isFor name old hold).withEntry entry
    · exact h.isFor other field hfield
  subst hafter
  exact ⟨h.degree_eq, h.min_le, h.le_max, h.slots_eq,
    Array.size_setIfInBounds.trans h.size_eq, hfields⟩

theorem consistent_step (form : Form) (action : Action) (h : form.Consistent) :
    (form.step action).form.Consistent := by
  rcases step_cases form action with hsame | ⟨degree, -, hcheck, hafter⟩ | ⟨_, -, -, -, hnothing⟩ |
    ⟨name, entry, -, henter⟩
  · rcases h with hnothing | ⟨degree, hshows⟩
    · exact .inl (hnothing.of_sameFields hsame)
    · exact .inr ⟨degree, hshows.of_sameFields (settings_step form action) hsame⟩
  · rw [hafter]
    exact .inr ⟨degree, shows_acceptDegree hcheck⟩
  · exact .inl hnothing
  · rcases h with hnothing | ⟨degree, hshows⟩
    · obtain ⟨field, hfield, -⟩ := enter_eq_ok_iff.1 henter
      simp [field?, hnothing.fields_eq] at hfield
    · exact .inr ⟨degree, hshows.enter henter⟩

theorem consistent_after_empty (settings : Settings) (actions : List Action) :
    ((empty settings).after actions).Consistent :=
  after_induction (.inl ⟨rfl, rfl, rfl⟩) consistent_step actions

/-! ## What is shown -/

theorem Shows.isSome_field?_iff {form : Form} {degree : Degree} (h : form.Shows degree)
    (name : FieldName) : (form.field? name).isSome = true ↔ name.exponent ≤ degree.value := by
  rw [field?, isSome_getElem?, h.size_eq, Degree.toNat_lt_termCount_iff]

theorem Shows.mem_slots_iff {form : Form} {degree : Degree} (h : form.Shows degree)
    (name : FieldName) : name ∈ form.slots ↔ name.exponent ≤ degree.value := by
  have hinjective : Function.Injective FieldName.mk := by
    intro a b hab
    cases hab
    rfl
  rw [h.slots_eq, ← Degree.mem_exponents_iff]
  exact List.mem_map_of_injective hinjective

theorem Shows.exists_field {form : Form} {degree : Degree} (h : form.Shows degree)
    {name : FieldName} (hname : name.exponent ≤ degree.value) :
    ∃ field, form.field? name = some field ∧ field.IsFor name := by
  obtain ⟨field, hfield⟩ := Option.isSome_iff_exists.1 ((h.isSome_field?_iff name).2 hname)
  exact ⟨field, hfield, h.isFor name field hfield⟩

theorem Shows.map_exponent_slots {form : Form} {degree : Degree} (h : form.Shows degree) :
    form.slots.map (fun name => name.exponent.toNat) =
      (List.range (degree.value.toNat + 1)).reverse := by
  rw [h.slots_eq, List.map_map]
  exact degree.map_toNat_exponents

theorem Shows.nodup_slots {form : Form} {degree : Degree} (h : form.Shows degree) :
    form.slots.Nodup := by
  apply List.Nodup.of_map (fun name => name.exponent.toNat)
  rw [h.map_exponent_slots, List.nodup_reverse]
  exact List.nodup_range

/-- Every slot has its field, and the fields are shown in the order of the slots. -/
theorem Shows.map_name_shownFields {form : Form} {degree : Degree} (h : form.Shows degree) :
    form.shownFields.map Field.name = form.slots.map some := by
  have hname : ∀ name ∈ form.slots, (form.field? name).map Field.name = some (some name) := by
    intro name hmem
    obtain ⟨field, hfield, hfor⟩ := h.exists_field ((h.mem_slots_iff name).1 hmem)
    rw [hfield, Option.map_some, hfor.name_eq]
  rw [shownFields, List.map_filterMap, List.filterMap_congr hname, List.filterMap_eq_map']

theorem Shows.isFor_of_mem_shownFields {form : Form} {degree : Degree} (h : form.Shows degree)
    {field : Field} (hfield : field ∈ form.shownFields) :
    ∃ name, form.field? name = some field ∧ field.IsFor name := by
  obtain ⟨name, -, hname⟩ := List.mem_filterMap.1 hfield
  exact ⟨name, hname, h.isFor name field hname⟩

/-- No two fields are shown with the same label. -/
theorem Shows.nodup_labels {form : Form} {degree : Degree} (h : form.Shows degree) :
    (form.shownFields.map fun field => field.label.map Label.text).Nodup := by
  have hfields : form.shownFields.Nodup := by
    apply List.Nodup.of_map Field.name
    rw [h.map_name_shownFields]
    exact h.nodup_slots.map (Option.some_injective _)
  apply List.Nodup.map_on _ hfields
  intro field hfield other hother hlabel
  obtain ⟨name, hname, hfor⟩ := h.isFor_of_mem_shownFields hfield
  obtain ⟨otherName, hotherName, hforOther⟩ := h.isFor_of_mem_shownFields hother
  have heq : name = otherName := hfor.name_eq_of_labelText_eq hforOther hlabel
  rw [heq, hotherName] at hname
  exact (Option.some.inj hname).symm

/-- Degree, slots and fields agree after every list of actions, whatever the settings are: either
nothing is shown, or a degree within the bounds with one field for each exponent up to it. A field
stands under its own name and shows its exponent uncorrected, no slot lacks its field, and no
label is shown twice. -/
theorem after_empty_shows_all_or_nothing (settings : Settings) (actions : List Action) :
    let form := (empty settings).after actions
    form.settings = settings ∧
    (form.degree = none ∧ form.slots = [] ∧ form.fields = #[] ∨
      ∃ degree, form.degree = some degree ∧
        settings.bounds.min ≤ degree.value ∧ degree.value ≤ settings.bounds.max ∧
        form.slots.map (fun name => name.exponent.toNat) =
          (List.range (degree.value.toNat + 1)).reverse ∧
        form.fields.size = degree.value.toNat + 1 ∧
        (∀ name, (form.field? name).isSome = true ↔ name.exponent ≤ degree.value) ∧
        (∀ name field, form.field? name = some field →
          field.name = some name ∧ field.exponent.isFinite = true ∧
            field.exponent.toRat = name.exponent.toNat ∧
            field.shown = ⟨name.exponent, []⟩ ∧
            field.label = if name.exponent = 0 then none else some ⟨name.exponent⟩) ∧
        form.shownFields.length = degree.value.toNat + 1) ∧
    form.shownFields.map Field.name = form.slots.map some ∧
    (∀ name, (form.field? name).isSome = true ↔ name ∈ form.slots) ∧
    (form.shownFields.map fun field => field.label.map Label.text).Nodup := by
  intro form
  have hsettings : form.settings = settings := settings_after (empty settings) actions
  refine ⟨hsettings, ?_⟩
  rcases consistent_after_empty settings actions with hnothing | ⟨degree, hshows⟩
  · have hfields : form.shownFields = [] := by
      rw [shownFields, hnothing.slots_eq, List.filterMap_nil]
    refine ⟨.inl ⟨hnothing.degree_eq, hnothing.slots_eq, hnothing.fields_eq⟩, ?_, ?_, ?_⟩
    · rw [hfields, hnothing.slots_eq, List.map_nil, List.map_nil]
    · intro name
      simp [field?, form, hnothing.fields_eq, hnothing.slots_eq]
    · rw [hfields]
      exact List.nodup_nil
  · have hnames := hshows.map_name_shownFields
    refine ⟨.inr ⟨degree, hshows.degree_eq, hsettings ▸ hshows.min_le, hsettings ▸ hshows.le_max,
      hshows.map_exponent_slots, hshows.size_eq, hshows.isSome_field?_iff, ?_, ?_⟩, hnames, ?_,
      hshows.nodup_labels⟩
    · intro name field hfield
      have hfor := hshows.isFor name field hfield
      refine ⟨hfor.name_eq, ?_, ?_, hfor.shown_eq, hfor.label_eq⟩
      · rw [hfor.exponent_eq]
        exact Binary64.isFinite_ofUInt32 _
      · rw [hfor.exponent_eq]
        exact Binary64.toRat_ofUInt32 _
    · have hlength := congrArg List.length hshows.map_exponent_slots
      have hlengths := congrArg List.length hnames
      simp only [List.length_map, List.length_reverse, List.length_range] at hlength hlengths
      rw [hlengths, hlength]
    · intro name
      rw [hshows.isSome_field?_iff, hshows.mem_slots_iff]

end CoefficientForm.Form
