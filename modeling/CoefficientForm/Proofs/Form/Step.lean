-- SUMMARY: What one action does to a form, and what holds after every list of actions.
import CoefficientForm.Form.Step
import CoefficientForm.Proofs.Degree
import CoefficientForm.Proofs.Field

/-!
# Steps of a form

A step either leaves the fields alone, shows the fields of an accepted degree, hides the fields
because a degree was refused, or changes one entry. What every step keeps, every list of actions
keeps.
-/

namespace CoefficientForm.Form

/-! ## Looking up fields -/

@[simp] theorem field?_empty (settings : Settings) (name : FieldName) :
    (empty settings).field? name = none := by
  simp [field?, empty]

theorem field?_eq_of_fields {form other : Form} (h : other.fields = form.fields)
    (name : FieldName) : other.field? name = form.field? name := by
  rw [field?, h, field?]

theorem field?_acceptDegree (form : Form) (degree : Degree) (name : FieldName) :
    (form.acceptDegree degree).field? name =
      if name.exponent ≤ degree.value then some (form.newField name) else none := by
  rw [field?, acceptDegree, Array.getElem?_ofFn]
  simp only [Degree.toNat_lt_termCount_iff, UInt32.ofNat_toNat, dite_eq_ite]

/-- The text in the field of a name, where one is shown. -/
def entered? (form : Form) (name : FieldName) : Option String :=
  (form.field? name).map Field.entry

theorem entered?_eq_some_iff {form : Form} {name : FieldName} {entry : String} :
    form.entered? name = some entry ↔ ∃ field, form.field? name = some field ∧ field.entry = entry :=
  Option.map_eq_some_iff

theorem entered?_acceptDegree (form : Form) (degree : Degree) (name : FieldName) :
    (form.acceptDegree degree).entered? name =
      if name.exponent ≤ degree.value then some (form.initialEntry name) else none := by
  rw [entered?, field?_acceptDegree]
  split <;> rfl

/-! ## Entering a text -/

theorem enter_eq_ok_iff {form after : Form} {name : FieldName} {entry : String} :
    form.enter name entry = .ok after ↔
      ∃ field, form.field? name = some field ∧
        after = { form with
          fields := form.fields.setIfInBounds name.exponent.toNat (field.withEntry entry) } := by
  rw [enter]
  cases form.field? name with
  | none => simp
  | some field => simp [eq_comm]

/-- The text goes into the field of that name and nowhere else. -/
theorem field?_of_enter {form after : Form} {name : FieldName} {entry : String}
    (h : form.enter name entry = .ok after) (other : FieldName) :
    after.field? other =
      if other = name then (form.field? name).map (·.withEntry entry) else form.field? other := by
  obtain ⟨field, hfield, rfl⟩ := enter_eq_ok_iff.1 h
  have hlt : name.exponent.toNat < form.fields.size := by
    rw [field?] at hfield
    exact (Array.getElem?_eq_some_iff.1 hfield).1
  simp only [field?, Array.getElem?_setIfInBounds]
  by_cases hname : other = name
  · subst hname
    rw [field?] at hfield
    simp only [hfield, hlt, if_true, Option.map_some]
  · have hexponent : name.exponent.toNat ≠ other.exponent.toNat := by
      intro heq
      exact hname (congrArg FieldName.mk (UInt32.toNat_inj.1 heq)).symm
    simp [hname, hexponent]

theorem entered?_of_enter {form after : Form} {name : FieldName} {entry : String}
    (h : form.enter name entry = .ok after) (other : FieldName) :
    after.entered? other = if other = name then some entry else form.entered? other := by
  obtain ⟨field, hfield, -⟩ := enter_eq_ok_iff.1 h
  rw [entered?, field?_of_enter h, hfield]
  split
  · rfl
  · rfl

/-! ## One step -/

theorem step_go_of_ok {form : Form} {degree : Degree} (h : form.checkDegree = .ok degree) :
    (form.step .go).form = form.acceptDegree degree := by
  rw [step, h]

theorem step_go_of_error {form : Form} {refusal : DegreeRefusal}
    (h : form.checkDegree = .error refusal) : (form.step .go).form = form.refuseDegree := by
  rw [step, h]

theorem step_enter_of_ok {form after : Form} {name : FieldName} {entry : String}
    (h : form.enter name entry = .ok after) : (form.step (.enter name entry)).form = after := by
  rw [step, h]

theorem step_enter_of_error {form : Form} {name : FieldName} {entry : String} {e : UnknownField}
    (h : form.enter name entry = .error e) : (form.step (.enter name entry)).form = form := by
  rw [step, h]

/-- Whether two forms show the same degree and the same fields. -/
structure SameFields (form other : Form) : Prop where
  degree_eq : other.degree = form.degree
  slots_eq : other.slots = form.slots
  fields_eq : other.fields = form.fields

/-- Whether a form shows no field. -/
structure ShowsNothing (form : Form) : Prop where
  degree_eq : form.degree = none
  slots_eq : form.slots = []
  fields_eq : form.fields = #[]

theorem refuseDegree_sameFields {form : Form} (h : form.settings.keepFields = true) :
    SameFields form form.refuseDegree := by
  simp only [refuseDegree, h, if_true]
  exact ⟨rfl, rfl, rfl⟩

theorem refuseDegree_showsNothing {form : Form} (h : form.settings.keepFields = false) :
    form.refuseDegree.ShowsNothing := by
  simp only [refuseDegree, h, Bool.false_eq_true, if_false]
  exact ⟨rfl, rfl, rfl⟩

/-- All that a step can do to the fields. -/
theorem step_cases (form : Form) (action : Action) :
    SameFields form (form.step action).form ∨
    (∃ degree, action = .go ∧ form.checkDegree = .ok degree ∧
      (form.step action).form = form.acceptDegree degree) ∨
    (∃ refusal, action = .go ∧ form.checkDegree = .error refusal ∧
      form.settings.keepFields = false ∧ (form.step action).form.ShowsNothing) ∨
    (∃ name entry, action = .enter name entry ∧
      form.enter name entry = .ok (form.step action).form) := by
  cases action with
  | go =>
      cases hcheck : form.checkDegree with
      | ok degree => exact .inr (.inl ⟨degree, rfl, rfl, step_go_of_ok hcheck⟩)
      | error refusal =>
          rw [step_go_of_error hcheck]
          cases hkeep : form.settings.keepFields with
          | true => exact .inl (refuseDegree_sameFields hkeep)
          | false => exact .inr (.inr (.inl ⟨refusal, rfl, rfl, rfl, refuseDegree_showsNothing hkeep⟩))
  | enter name entry =>
      cases henter : form.enter name entry with
      | ok after =>
          rw [step_enter_of_ok henter]
          exact .inr (.inr (.inr ⟨name, entry, rfl, henter⟩))
      | error e =>
          rw [step_enter_of_error henter]
          exact .inl ⟨rfl, rfl, rfl⟩
  | typeDegree text => exact .inl ⟨rfl, rfl, rfl⟩
  | submit => exact .inl ⟨rfl, rfl, rfl⟩
  | dismissBanner => exact .inl ⟨rfl, rfl, rfl⟩
  | register receiver => exact .inl ⟨rfl, rfl, rfl⟩
  | unregister => exact .inl ⟨rfl, rfl, rfl⟩

theorem settings_step (form : Form) (action : Action) :
    (form.step action).form.settings = form.settings := by
  cases action with
  | go =>
      cases hcheck : form.checkDegree with
      | ok degree => rw [step_go_of_ok hcheck, acceptDegree]
      | error refusal =>
          rw [step_go_of_error hcheck]
          simp only [refuseDegree]
          split <;> rfl
  | enter name entry =>
      cases henter : form.enter name entry with
      | ok after =>
          obtain ⟨field, -, hafter⟩ := enter_eq_ok_iff.1 henter
          rw [step_enter_of_ok henter, hafter]
      | error e => rw [step_enter_of_error henter]
  | _ => rfl

/-! ## Runs -/

/-- What holds at the start and is kept by every step holds after every list of actions. -/
theorem after_induction {P : Form → Prop} {form : Form} (hstart : P form)
    (hstep : ∀ form action, P form → P (form.step action).form) (actions : List Action) :
    P (form.after actions) := by
  induction actions generalizing form with
  | nil => exact hstart
  | cons action rest ih => exact ih (hstep form action hstart)

theorem after_concat (form : Form) (actions : List Action) (action : Action) :
    form.after (actions ++ [action]) = ((form.after actions).step action).form :=
  after_append form actions [action]

@[simp] theorem length_run (form : Form) (actions : List Action) :
    (form.run actions).length = actions.length := by
  induction actions generalizing form with
  | nil => rfl
  | cons action rest ih => simp only [run, List.length_cons, ih]

theorem run_append (form : Form) (first second : List Action) :
    form.run (first ++ second) = form.run first ++ (form.after first).run second := by
  induction first generalizing form with
  | nil => rfl
  | cons action rest ih => simp only [List.cons_append, run, ih, after_cons]

theorem run_concat (form : Form) (actions : List Action) (action : Action) :
    form.run (actions ++ [action]) = form.run actions ++ [(form.after actions).step action] :=
  run_append form actions [action]

/-- Each response of a run is that of the form which the actions before it leave. -/
theorem getElem?_run (form : Form) (actions : List Action) (index : Nat) :
    (form.run actions)[index]? = actions[index]?.map (form.after (actions.take index)).step := by
  induction actions generalizing form index with
  | nil => simp [run]
  | cons action rest ih =>
      cases index with
      | zero => rfl
      | succ index => simp only [run, List.getElem?_cons_succ, ih, List.take_succ_cons, after_cons]

theorem settings_after (form : Form) (actions : List Action) :
    (form.after actions).settings = form.settings :=
  after_induction (P := fun after => after.settings = form.settings) rfl
    (fun after action h => (settings_step after action).trans h) actions

end CoefficientForm.Form
