-- SUMMARY: The text in a field as a law over the whole history of a form.
import CoefficientForm.Proofs.Form.Representation

/-!
# Entries and the history of a form

An action either resets the field of a name, or enters a text into it, or leaves it alone. The text
in a field is the one entered last, unless a reset came later, which leaves the field blank.
-/

namespace CoefficientForm.Form

/-- Whether an action, taken on a form, makes the field of a name start anew: a degree is refused
and fields are not kept, or one is accepted and either entries are not kept or the field was not
shown just before. -/
inductive Resets (form : Form) (name : FieldName) : Action → Prop where
  | refused {refusal : DegreeRefusal} : form.checkDegree = .error refusal →
      form.settings.keepFields = false → Resets form name .go
  | discarded {degree : Degree} : form.checkDegree = .ok degree →
      form.settings.keepEntries = false → Resets form name .go
  | unshown {degree : Degree} : form.checkDegree = .ok degree →
      form.field? name = none → Resets form name .go

/-- Whether an action, taken on a form, enters a text into the field of a name. The action fails
where no such field is shown. -/
def Enters (form : Form) (name : FieldName) (entry : String) (action : Action) : Prop :=
  action = .enter name entry ∧ ∃ after, form.enter name entry = .ok after

/-- Whether an action, taken on a form, neither resets the field of a name nor enters a text. -/
def Leaves (form : Form) (name : FieldName) (action : Action) : Prop :=
  ¬ form.Resets name action ∧ ∀ entry, ¬ form.Enters name entry action

/-- Whether each of a list of actions, taken in turn, leaves the field of a name alone. -/
def Untouched (name : FieldName) : Form → List Action → Prop
  | _, [] => True
  | form, action :: rest => form.Leaves name action ∧ Untouched name (form.step action).form rest

variable {form : Form} {name : FieldName} {action : Action} {entry : String}

theorem untouched_concat {actions : List Action} :
    Untouched name form (actions ++ [action]) ↔
      Untouched name form actions ∧ (form.after actions).Leaves name action := by
  induction actions generalizing form with
  | nil => simp [Untouched]
  | cons first rest ih => simp only [List.cons_append, Untouched, ih, after_cons, and_assoc]

/-! ## What one action does to an entry -/

theorem initialEntry_of_discarded (h : form.settings.keepEntries = false) :
    form.initialEntry name = "" := by
  rw [initialEntry, h]
  rfl

theorem initialEntry_of_unshown (h : form.field? name = none) : form.initialEntry name = "" := by
  rw [initialEntry, h]
  split <;> rfl

theorem initialEntry_of_kept (h : form.settings.keepEntries = true) :
    form.initialEntry name = (form.entered? name).getD "" := by
  rw [initialEntry, h, entered?]
  cases form.field? name <;> rfl

theorem entered?_of_showsNothing (h : form.ShowsNothing) : form.entered? name = none := by
  simp [entered?, field?, h.fields_eq]

theorem eq_empty_of_resets (h : form.Resets name action)
    (hentry : (form.step action).form.entered? name = some entry) : entry = "" := by
  cases h with
  | refused hcheck hkeep =>
      rw [step_go_of_error hcheck, entered?_of_showsNothing (refuseDegree_showsNothing hkeep)]
        at hentry
      cases hentry
  | discarded hcheck hkeep =>
      rw [step_go_of_ok hcheck, entered?_acceptDegree, initialEntry_of_discarded hkeep] at hentry
      split at hentry
      · exact (Option.some.inj hentry).symm
      · cases hentry
  | unshown hcheck hfield =>
      rw [step_go_of_ok hcheck, entered?_acceptDegree, initialEntry_of_unshown hfield] at hentry
      split at hentry
      · exact (Option.some.inj hentry).symm
      · cases hentry

theorem entered?_of_enters (h : form.Enters name entry action) :
    (form.step action).form.entered? name = some entry := by
  obtain ⟨rfl, after, hafter⟩ := h
  rw [step_enter_of_ok hafter, entered?_of_enter hafter, if_pos rfl]

theorem entered?_of_leaves (h : form.Leaves name action)
    (hentry : (form.step action).form.entered? name = some entry) :
    form.entered? name = some entry := by
  obtain ⟨hresets, henters⟩ := h
  rcases step_cases form action with hsame | ⟨degree, rfl, hcheck, hafter⟩ |
    ⟨refusal, rfl, hcheck, hkeep, -⟩ | ⟨other, text, rfl, hafter⟩
  · rwa [entered?, field?_eq_of_fields hsame.fields_eq] at hentry
  · -- The degree was accepted: entries are kept, and the field was there to keep its entry.
    have hkeep : form.settings.keepEntries = true := by
      rw [← Bool.not_eq_false]
      exact fun hkeep => hresets (.discarded hcheck hkeep)
    obtain ⟨field, hfield⟩ := Option.ne_none_iff_exists'.1 fun hnone =>
      hresets (.unshown hcheck hnone)
    have hentered : form.entered? name = some field.entry := by rw [entered?, hfield]; rfl
    rw [hafter, entered?_acceptDegree, initialEntry_of_kept hkeep, hentered] at hentry
    split at hentry
    · rw [hentered]
      exact hentry
    · cases hentry
  · exact absurd (.refused hcheck hkeep) hresets
  · by_cases hname : name = other
    · exact absurd ⟨by rw [hname], _, hname ▸ hafter⟩ (henters text)
    · rwa [entered?_of_enter hafter, if_neg hname] at hentry

/-! ## What a whole history does to an entry -/

/-- Of the actions that do not leave a field alone, the last one decides its entry. -/
theorem last_touch_of_entered? {start : Form} (hstart : start.entered? name = none)
    {actions : List Action} (h : (start.after actions).entered? name = some entry) :
    (∃ earlier later, actions = earlier ++ .enter name entry :: later ∧
      (∃ after, (start.after earlier).enter name entry = .ok after) ∧
      Untouched name (start.after (earlier ++ [.enter name entry])) later) ∨
    (entry = "" ∧ ∃ earlier action later, actions = earlier ++ action :: later ∧
      (start.after earlier).Resets name action ∧
      Untouched name (start.after (earlier ++ [action])) later) := by
  induction actions using List.reverseRecOn generalizing entry with
  | nil =>
      rw [after_nil, hstart] at h
      cases h
  | append_singleton init last ih =>
      rw [after_concat] at h
      by_cases hresets : (start.after init).Resets name last
      · exact .inr ⟨eq_empty_of_resets hresets h, init, last, [], rfl, hresets, trivial⟩
      by_cases henters : ∃ text, (start.after init).Enters name text last
      · obtain ⟨text, henters⟩ := henters
        obtain rfl : text = entry := by
          rw [entered?_of_enters henters] at h
          exact Option.some.inj h
        obtain ⟨rfl, hafter⟩ := henters
        exact .inl ⟨init, [], rfl, hafter, trivial⟩
      · have hleaves : (start.after init).Leaves name last :=
          ⟨hresets, not_exists.1 henters⟩
        have hlast : ∀ earlier action later, init = earlier ++ action :: later →
            Untouched name (start.after (earlier ++ [action])) later →
            Untouched name (start.after (earlier ++ [action])) (later ++ [last]) := by
          rintro earlier action later rfl huntouched
          refine untouched_concat.2 ⟨huntouched, ?_⟩
          rw [← after_append, List.append_assoc]
          exact hleaves
        rcases ih (entered?_of_leaves hleaves h) with ⟨earlier, later, rfl, hafter, huntouched⟩ |
          ⟨hblank, earlier, action, later, rfl, hreset, huntouched⟩
        · exact .inl ⟨earlier, later ++ [last], by simp, hafter, hlast _ _ _ rfl huntouched⟩
        · exact .inr ⟨hblank, earlier, action, later ++ [last], by simp, hreset,
            hlast _ _ _ rfl huntouched⟩

/-! ## Going again -/

theorem entered?_eq_none_of_step (haction : action ≠ .go) (h : form.entered? name = none) :
    (form.step action).form.entered? name = none := by
  rcases step_cases form action with hsame | ⟨_, hgo, -⟩ | ⟨_, hgo, -⟩ | ⟨other, text, -, hafter⟩
  · rwa [entered?, field?_eq_of_fields hsame.fields_eq]
  · exact absurd hgo haction
  · exact absurd hgo haction
  · have hname : name ≠ other := by
      rintro rfl
      obtain ⟨field, hfield, -⟩ := enter_eq_ok_iff.1 hafter
      rw [entered?, hfield] at h
      cases h
    rw [entered?_of_enter hafter, if_neg hname, h]

theorem entered?_eq_none_of_after {actions : List Action} (hactions : ∀ action ∈ actions, action ≠ .go)
    (h : form.entered? name = none) : (form.after actions).entered? name = none := by
  induction actions generalizing form with
  | nil => exact h
  | cons action rest ih =>
      rw [after_cons]
      apply ih
      · intro later hlater
        exact hactions later (List.mem_cons_of_mem _ hlater)
      · exact entered?_eq_none_of_step (hactions action List.mem_cons_self) h

/-- A field that a smaller degree took away comes back blank. -/
theorem entered?_of_regrown {smaller larger : Degree} {between : List Action}
    (hsmaller : form.checkDegree = .ok smaller) (hname : smaller.value < name.exponent)
    (hbetween : ∀ action ∈ between, action ≠ .go)
    (hlarger : ((form.step .go).form.after between).checkDegree = .ok larger)
    (hregrown : name.exponent ≤ larger.value) :
    (((form.step .go).form.after between).step .go).form.entered? name = some "" := by
  have hgone : (form.step .go).form.entered? name = none := by
    rw [step_go_of_ok hsmaller, entered?_acceptDegree, if_neg (UInt32.not_le.2 hname)]
  have hunshown : ((form.step .go).form.after between).field? name = none :=
    Option.map_eq_none_iff.1 (entered?_eq_none_of_after hbetween hgone)
  rw [step_go_of_ok hlarger, entered?_acceptDegree, if_pos hregrown,
    initialEntry_of_unshown hunshown]

theorem Shows.entered?_acceptDegree {degree : Degree} (h : form.Shows degree)
    (hkeep : form.settings.keepEntries = true) :
    (form.acceptDegree degree).entered? name = form.entered? name := by
  rw [Form.entered?_acceptDegree, initialEntry_of_kept hkeep]
  by_cases hname : name.exponent ≤ degree.value
  · obtain ⟨field, hfield, -⟩ := h.exists_field hname
    rw [if_pos hname, entered?, hfield]
    rfl
  · have hnone : form.field? name = none := by
      rw [← Option.not_isSome_iff_eq_none, h.isSome_field?_iff]
      exact hname
    rw [if_neg hname, entered?, hnone]
    rfl

/-- The entries after every list of actions. Where a field is shown, its text is that of the last
action that entered one into it, with no reset since; or the field is blank, was reset, and no
text was entered since. So a field taken away by a smaller degree comes back blank, and where the
settings keep them, entries survive an accepted degree that is the one shown, and a refused one. -/
theorem entered?_after_empty (settings : Settings) (actions : List Action) :
    let form := (empty settings).after actions
    (∀ name entry, form.entered? name = some entry →
      (∃ earlier later, actions = earlier ++ .enter name entry :: later ∧
        (∃ after, ((empty settings).after earlier).enter name entry = .ok after) ∧
        Untouched name ((empty settings).after (earlier ++ [.enter name entry])) later) ∨
      (entry = "" ∧ ∃ earlier action later, actions = earlier ++ action :: later ∧
        ((empty settings).after earlier).Resets name action ∧
        Untouched name ((empty settings).after (earlier ++ [action])) later)) ∧
    (∀ smaller larger name between, form.checkDegree = .ok smaller →
      smaller.value < name.exponent → (∀ action ∈ between, action ≠ .go) →
      ((form.step .go).form.after between).checkDegree = .ok larger →
      name.exponent ≤ larger.value →
      (((form.step .go).form.after between).step .go).form.entered? name = some "") ∧
    (settings.keepEntries = true → ∀ degree, form.degree = some degree →
      form.checkDegree = .ok degree →
      ∀ name, (form.step .go).form.entered? name = form.entered? name) ∧
    (settings.keepFields = true → ∀ refusal, form.checkDegree = .error refusal →
      ∀ name, (form.step .go).form.entered? name = form.entered? name) := by
  intro form
  have hsettings : form.settings = settings := settings_after (empty settings) actions
  refine ⟨?_, ?_, ?_, ?_⟩
  · intro name entry hentry
    apply last_touch_of_entered? _ hentry
    rw [entered?, field?_empty]
    rfl
  · intro smaller larger name between hsmaller hname hbetween hlarger hregrown
    exact entered?_of_regrown hsmaller hname hbetween hlarger hregrown
  · intro hkeep degree hdegree hcheck name
    rw [← hsettings] at hkeep
    rw [step_go_of_ok hcheck]
    rcases consistent_after_empty settings actions with hnothing | ⟨shown, hshows⟩
    · have hnone : form.degree = none := hnothing.degree_eq
      rw [hdegree] at hnone
      cases hnone
    · have hsome : form.degree = some shown := hshows.degree_eq
      rw [hdegree] at hsome
      cases hsome
      exact hshows.entered?_acceptDegree hkeep
  · intro hkeep refusal hcheck name
    rw [← hsettings] at hkeep
    rw [step_go_of_error hcheck, entered?,
      field?_eq_of_fields (refuseDegree_sameFields hkeep).fields_eq, entered?]

/-- Entries are kept, and still the field of `x^2` is blank after the degree was 1 for a while. -/
theorem entered?_of_shrunk_and_regrown :
    let form := (empty ⟨⟨1, 4⟩, true, true⟩).after
      [.typeDegree "2", .go, .enter ⟨2⟩ "7", .typeDegree "1"]
    form.entered? ⟨2⟩ = some "7" ∧
      (((form.step .go).form.after [.typeDegree "2"]).step .go).form.entered? ⟨2⟩ = some "" := by
  intro form
  refine ⟨by decide +kernel, ?_⟩
  apply (entered?_after_empty _ _).2.1 ⟨1⟩ ⟨2⟩
  · decide +kernel
  · decide
  · decide
  · decide +kernel
  · decide

end CoefficientForm.Form
