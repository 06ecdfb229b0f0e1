-- SUMMARY: A field shows what was given to it last, whatever was given to it before.
import CoefficientForm.Proofs.Field

/-!
# Histories of a field

A field works out what it shows only when the bits of a new exponent differ from those it has. This
is not noticed: after any actions the field is the one that a new field becomes with the exponent
and the entry given last. Only the log tells, because giving the same bits again is not logged.
-/

namespace CoefficientForm

/-- The 64 bits of a double, its sign first. -/
def Binary64.bits (x : Binary64) : ℕ :=
  (if x.negative then 0x8000000000000000 else 0) + x.rank

theorem Binary64.bits_inj {x y : Binary64} : x.bits = y.bits ↔ x = y := by
  constructor
  · intro h
    have hx := x.rank_lt
    have hy := y.rank_lt
    cases x
    cases y
    simp only [bits] at h hx hy
    split at h <;> split at h <;> simp_all <;> omega
  · exact congrArg bits

namespace Field

/-! ## Actions in turn -/

/-- The exponent that an action gives. -/
def Action.exponent? : Action → Option Binary64
  | .giveExponent exponent => some exponent
  | .enter _ => none

/-- The entry that an action gives. -/
def Action.entry? : Action → Option String
  | .giveExponent _ => none
  | .enter entry => some entry

/-- The field after a list of actions. -/
def after (field : Field) (actions : List Action) : Field :=
  actions.foldl (fun field action => (field.step action).1) field

/-- The exponent given last, or else the one that the field was made for. -/
def lastExponent (field : Field) (actions : List Action) : Binary64 :=
  (actions.filterMap Action.exponent?).getLast?.getD field.exponent

/-- The entry given last, or else the one that the field had. -/
def lastEntry (field : Field) (actions : List Action) : String :=
  (actions.filterMap Action.entry?).getLast?.getD field.entry

variable {field : Field} {actions : List Action} {action : Action}

theorem after_concat :
    field.after (actions ++ [action]) = ((field.after actions).step action).1 := by
  rw [after, List.foldl_append]
  rfl

theorem lastExponent_concat :
    field.lastExponent (actions ++ [action]) =
      action.exponent?.getD (field.lastExponent actions) := by
  rw [lastExponent, List.filterMap_append, List.getLast?_append]
  cases action <;> rfl

theorem lastEntry_concat :
    field.lastEntry (actions ++ [action]) = action.entry?.getD (field.lastEntry actions) := by
  rw [lastEntry, List.filterMap_append, List.getLast?_append]
  cases action <;> rfl

/-! ## What is shown belongs to the exponent -/

/-- Whether a field shows what its exponent asks for. -/
def Coherent (field : Field) : Prop :=
  field.shown = Exponent.shown field.exponent

/-- Leaving out what would be worked out again changes nothing. -/
theorem Coherent.withExponent_eq (h : field.Coherent) (exponent : Binary64) :
    field.withExponent exponent = { field with exponent, shown := Exponent.shown exponent } := by
  rw [withExponent]
  split
  · rename_i hsame
    rw [hsame, ← h]
  · rfl

theorem Coherent.step_eq (h : field.Coherent) (action : Action) :
    (field.step action).1 =
      ⟨field.name, action.exponent?.getD field.exponent,
        Exponent.shown (action.exponent?.getD field.exponent), action.entry?.getD field.entry⟩ := by
  cases action with
  | giveExponent exponent => exact h.withExponent_eq exponent
  | enter entry =>
      rw [Action.exponent?, Option.getD_none, ← h]
      rfl

theorem Coherent.after_eq (h : field.Coherent) (actions : List Action) :
    field.after actions =
      ⟨field.name, field.lastExponent actions, Exponent.shown (field.lastExponent actions),
        field.lastEntry actions⟩ := by
  induction actions using List.reverseRecOn with
  | nil =>
      have hsame : Exponent.shown (field.lastExponent []) = field.shown := h.symm
      rw [hsame]
      rfl
  | append_singleton init last ih =>
      have hinit : (field.after init).Coherent := by
        rw [ih]
        rfl
      rw [after_concat, hinit.step_eq, ih, lastExponent_concat, lastEntry_concat]

/-! ## New fields -/

/-- The fields as they are made. -/
inductive IsNew : Field → Prop
  | ofExponent (exponent : Binary64) : IsNew (ofExponent exponent)
  | ofName (name : FieldName) : IsNew (ofName name)

theorem IsNew.coherent (h : field.IsNew) : field.Coherent := by
  cases h <;> rfl

theorem IsNew.entry_eq (h : field.IsNew) : field.entry = "" := by
  cases h <;> rfl

/-- The label leaves out only the exponent 0. -/
theorem label_eq_none_iff : field.label = none ↔ field.shown.value = 0 := by
  rw [label]
  split <;> simp_all

theorem exponent_of_label {label : Label} (h : field.label = some label) :
    label.exponent = field.shown.value := by
  rw [Field.label] at h
  split at h
  · cases h
  · cases h
    rfl

/-- What a new field is after every list of actions. Its exponent is the one given last, and it
shows what that asks for; it is labelled so, unless with 0; its entry is the one given last, empty
at first, and its name stays. So it is what any new field of that name becomes with this exponent
and this entry. Giving other bits is logged by a warning for each correction that they call for, and
nothing else is logged. -/
theorem after_of_isNew (field : Field) (h : field.IsNew) (actions : List Action) :
    let exponent := field.lastExponent actions
    let entry := (actions.filterMap Action.entry?).getLast?.getD ""
    let now := field.after actions
    now.exponent = exponent ∧ now.shown = Exponent.shown exponent ∧
    (now.label = none ↔ (Exponent.shown exponent).value = 0) ∧
    (∀ label, now.label = some label → label.exponent = (Exponent.shown exponent).value) ∧
    now.entry = entry ∧ now.name = field.name ∧
    (∀ new : Field, new.IsNew → new.name = field.name →
      (new.withExponent exponent).withEntry entry = now) ∧
    (∀ given : Binary64, (now.step (.giveExponent given)).2 =
      if given.bits = exponent.bits then []
      else (Exponent.shown given).corrections.map fun correction =>
        ⟨.warning, correction.message, [("exponent", given.text)]⟩) ∧
    ∀ text, (now.step (.enter text)).2 = [] := by
  intro exponent entry now
  have hentry : field.lastEntry actions = entry := by rw [lastEntry, h.entry_eq]
  have hnow : now = ⟨field.name, exponent, Exponent.shown exponent, entry⟩ := by
    rw [← hentry]
    exact h.coherent.after_eq actions
  have hshown : now.shown = Exponent.shown exponent := by rw [hnow]
  refine ⟨by rw [hnow], hshown, ?_, ?_, by rw [hnow], by rw [hnow], ?_, ?_, fun _ => rfl⟩
  · rw [label_eq_none_iff, hshown]
  · intro label hlabel
    rw [exponent_of_label hlabel, hshown]
  · intro new hnew hname
    rw [hnew.coherent.withExponent_eq, hnow, ← hname]
    rfl
  · intro given
    have hlog : (now.step (.giveExponent given)).2 =
        if given = now.exponent then [] else (now.withExponent given).warnings := rfl
    have hcoherent : now.Coherent := by rw [Coherent, hnow]
    rw [hlog, hcoherent.withExponent_eq, hnow]
    simp only [Binary64.bits_inj]
    rfl

/-- A NaN given again is not logged, and the other NaN is, though neither is a number. The two zeros
are shown alike, and neither is corrected. -/
theorem after_of_nans_and_zeros :
    let field := ofExponent (.nan true)
    let actions : List Action := [.giveExponent (.nan true), .enter "1", .giveExponent (.zero true)]
    field.IsNew ∧ (field.after actions).exponent = .zero true ∧
      (field.after actions).shown = Exponent.shown (.zero true) ∧
      (field.after actions).entry = "1" ∧
      ((ofExponent (.zero false)).withExponent (.zero true)).withEntry "1" = field.after actions ∧
      ((field.after actions).step (.giveExponent (.zero false))).2 = [] ∧
      ((field.after [.enter "1"]).step (.giveExponent (.nan true))).2 = [] ∧
      ((field.after [.enter "1"]).step (.giveExponent (.nan false))).2 =
        [⟨.warning, "exponent 'NaN' was replaced with '0'", [("exponent", "NaN")]⟩] := by
  intro field actions
  have hnew : field.IsNew := .ofExponent _
  obtain ⟨hexponent, hshown, -, -, hentry, -, hfresh, hzero, -⟩ := after_of_isNew field hnew actions
  obtain ⟨-, -, -, -, -, -, -, hnan, -⟩ := after_of_isNew field hnew [.enter "1"]
  exact ⟨hnew, hexponent, hshown, hentry, hfresh _ (.ofExponent _) rfl,
    (hzero _).trans (by decide +kernel), (hnan _).trans (by decide +kernel),
    (hnan _).trans (by decide +kernel)⟩

end Field

end CoefficientForm
