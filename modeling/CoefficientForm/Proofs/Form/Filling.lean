-- SUMMARY: Filling the fields one after another, in the order in which they are shown.
import CoefficientForm.Proofs.Form.Submission

/-!
# Filling the fields

A list of texts goes through when a field is shown for each of them, and leaves the form with each
text in its field and every other field as it was. So texts given in the order of the fields end up
with the one for the degree first, and each later text one exponent lower.
-/

namespace CoefficientForm

/-! ## Places of fields -/

namespace Degree

/-- The name of the field that stands `index` places below the first. -/
def nameAt (degree : Degree) (index : Nat) : FieldName :=
  ⟨UInt32.ofNat (degree.value.toNat - index)⟩

theorem toNat_nameAt (degree : Degree) (index : Nat) :
    (degree.nameAt index).exponent.toNat = degree.value.toNat - index :=
  toNat_ofNat_of_lt_termCount (Nat.lt_succ_of_le (Nat.sub_le _ _))

theorem nameAt_le (degree : Degree) (index : Nat) :
    (degree.nameAt index).exponent ≤ degree.value := by
  rw [UInt32.le_iff_toNat_le, toNat_nameAt]
  exact Nat.sub_le _ _

theorem nameAt_sub {degree : Degree} {name : FieldName} (h : name.exponent ≤ degree.value) :
    degree.nameAt (degree.value.toNat - name.exponent.toNat) = name := by
  rw [← FieldName.toNat_exponent_inj, toNat_nameAt]
  exact Nat.sub_sub_self (UInt32.le_iff_toNat_le.1 h)

end Degree

namespace Form

variable {form after : Form} {degree : Degree}

/-! ## Entering a list of texts -/

theorem Shows.exists_enter_eq_ok (h : form.Shows degree) {name : FieldName}
    (hname : name.exponent ≤ degree.value) (entry : String) :
    ∃ after, form.enter name entry = .ok after := by
  obtain ⟨field, hfield, -⟩ := h.exists_field hname
  exact ⟨_, enter_eq_ok_iff.2 ⟨field, hfield, rfl⟩⟩

theorem enterAll_cons_eq_ok_iff {name : FieldName} {entry : String}
    {rest : List (FieldName × String)} :
    form.enterAll ((name, entry) :: rest) = .ok after ↔
      ∃ entered, form.enter name entry = .ok entered ∧ entered.enterAll rest = .ok after := by
  rw [enterAll]
  cases form.enter name entry with
  | ok entered => simp
  | error e => simp

theorem Shows.exists_enterAll_eq_ok (h : form.Shows degree) {entries : List (FieldName × String)}
    (hnames : ∀ entry ∈ entries, entry.1.exponent ≤ degree.value) :
    ∃ after, form.enterAll entries = .ok after ∧ after.Shows degree := by
  induction entries generalizing form with
  | nil => exact ⟨form, rfl, h⟩
  | cons first rest ih =>
      obtain ⟨name, entry⟩ := first
      obtain ⟨hname, hrest⟩ := List.forall_mem_cons.1 hnames
      obtain ⟨entered, henter⟩ := h.exists_enter_eq_ok hname entry
      obtain ⟨after, hafter, hshows⟩ := ih (h.enter henter) hrest
      exact ⟨after, enterAll_cons_eq_ok_iff.2 ⟨entered, henter, hafter⟩, hshows⟩

/-- Where no name comes twice, each text stands in the field of its name in the end, and a field
that is not named is left as it was. -/
theorem entered?_of_enterAll {entries : List (FieldName × String)}
    (h : form.enterAll entries = .ok after) (hnodup : (entries.map Prod.fst).Nodup) :
    (∀ name entry, (name, entry) ∈ entries → after.entered? name = some entry) ∧
      ∀ name, name ∉ entries.map Prod.fst → after.entered? name = form.entered? name := by
  induction entries generalizing form with
  | nil =>
      cases h
      exact ⟨by simp, fun _ _ => rfl⟩
  | cons first rest ih =>
      obtain ⟨name, entry⟩ := first
      rw [List.map_cons, List.nodup_cons] at hnodup
      obtain ⟨entered, henter, hrest⟩ := enterAll_cons_eq_ok_iff.1 h
      obtain ⟨hgiven, hother⟩ := ih hrest hnodup.2
      constructor
      · intro given text hmem
        rcases List.mem_cons.1 hmem with heq | hlater
        · cases heq
          rw [hother name hnodup.1, entered?_of_enter henter, if_pos rfl]
        · exact hgiven given text hlater
      · intro other hnot
        rw [List.map_cons, List.mem_cons, not_or] at hnot
        rw [hother other hnot.2, entered?_of_enter henter, if_neg hnot.1]

/-- Entering the texts one action at a time answers each of them and ends in the same form. -/
theorem run_enter_of_enterAll {entries : List (FieldName × String)}
    (h : form.enterAll entries = .ok after) :
    let actions := entries.map fun (name, entry) => Action.enter name entry
    (form.run actions).map Response.reply = List.replicate entries.length (.entered (.ok ())) ∧
      form.after actions = after := by
  intro actions
  induction entries generalizing form with
  | nil =>
      cases h
      exact ⟨rfl, rfl⟩
  | cons first rest ih =>
      obtain ⟨name, entry⟩ := first
      obtain ⟨entered, henter, hrest⟩ := enterAll_cons_eq_ok_iff.1 h
      obtain ⟨hreplies, hafter⟩ := ih hrest
      have hstep : form.step (.enter name entry) = ⟨entered, .entered (.ok ()), [], []⟩ := by
        rw [step, henter]
      constructor
      · simp only [actions, List.map_cons, run, hstep, hreplies, List.length_cons,
          List.replicate_succ]
      · simp only [actions, List.map_cons, after_cons, hstep, hafter]

/-! ## Filling the fields from the highest exponent down -/

theorem Shows.length_slots (h : form.Shows degree) : form.slots.length = degree.termCount := by
  rw [h.slots_eq, List.length_map, Degree.length_exponents]

theorem Shows.getElem?_slots (h : form.Shows degree) {index : Nat}
    (hindex : index < degree.termCount) : form.slots[index]? = some (degree.nameAt index) := by
  rw [h.slots_eq, List.getElem?_map, degree.getElem?_exponents hindex, Option.map_some,
    Degree.nameAt]

/-- The place of a field tells its exponent. -/
theorem Shows.getElem?_slots_of_le (h : form.Shows degree) {name : FieldName}
    (hname : name.exponent ≤ degree.value) :
    form.slots[degree.value.toNat - name.exponent.toNat]? = some name := by
  rw [h.getElem?_slots (Nat.lt_succ_of_le (Nat.sub_le _ _)), Degree.nameAt_sub hname]

theorem Shows.lt_of_mem_take_slots (h : form.Shows degree) {count : Nat} {name : FieldName}
    (hname : name ∈ form.slots.take count) :
    degree.value.toNat - name.exponent.toNat < count := by
  obtain ⟨index, hindex, hat⟩ := List.mem_take_iff_getElem.1 hname
  obtain ⟨hcount, hbound⟩ := Nat.lt_min.1 hindex
  have hplace : index < degree.termCount := h.length_slots ▸ hbound
  have hslot := h.getElem?_slots hplace
  rw [List.getElem?_eq_getElem hbound, hat, Option.some.injEq] at hslot
  rw [hslot, Degree.toNat_nameAt, Nat.sub_sub_self (Nat.le_of_lt_succ hplace)]
  exact hcount

theorem Shows.map_fst_zip_slots (h : form.Shows degree) {entries : List String}
    (hlength : entries.length ≤ degree.termCount) :
    (form.slots.zip entries).map Prod.fst = form.slots.take entries.length := by
  have hmin : min form.slots.length entries.length = entries.length := by
    rw [h.length_slots, Nat.min_eq_right hlength]
  rw [List.zip_eq_zip_take_min, hmin, List.take_length, List.map_fst_zip]
  exact List.length_take_le _ _

/-- The texts typed into the fields in turn always find their fields. The first stands at the degree
and each later one at one exponent less, and the fields below the last keep their entries. -/
theorem Shows.fill (h : form.Shows degree) {entries : List String}
    (hlength : entries.length ≤ degree.termCount) :
    ∃ filled, form.enterAll (form.slots.zip entries) = .ok filled ∧ filled.Shows degree ∧
      ∀ name : FieldName, name.exponent ≤ degree.value →
        filled.entered? name =
          (entries[degree.value.toNat - name.exponent.toNat]?).or (form.entered? name) := by
  have hfirst := h.map_fst_zip_slots hlength
  have hnodup : ((form.slots.zip entries).map Prod.fst).Nodup := by
    rw [hfirst]
    exact h.nodup_slots.sublist (List.take_sublist _ _)
  have hnames : ∀ entry ∈ form.slots.zip entries, entry.1.exponent ≤ degree.value :=
    fun entry hentry => (h.mem_slots_iff _).1 (List.of_mem_zip hentry).1
  obtain ⟨filled, hfilled, hshows⟩ := h.exists_enterAll_eq_ok hnames
  obtain ⟨hgiven, hother⟩ := entered?_of_enterAll hfilled hnodup
  refine ⟨filled, hfilled, hshows, ?_⟩
  intro name hname
  cases hentry : entries[degree.value.toNat - name.exponent.toNat]? with
  | some entry =>
      rw [Option.some_or]
      apply hgiven
      exact List.mem_of_getElem? (List.getElem?_zip_eq_some.2
        ⟨h.getElem?_slots_of_le hname, hentry⟩)
  | none =>
      rw [Option.none_or]
      apply hother
      rw [hfirst]
      intro hmem
      exact absurd (h.lt_of_mem_take_slots hmem) (Nat.not_lt.2 (List.getElem?_eq_none_iff.1 hentry))

end Form

end CoefficientForm
