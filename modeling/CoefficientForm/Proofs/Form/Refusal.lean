-- SUMMARY: What a refused action leaves of a form.
import CoefficientForm.Proofs.Form.Submission

/-!
# Refused actions

Three actions can be refused: entering a text, submitting, and going. The first two then leave the
form as it was. A refused degree raises the banner and otherwise leaves the form as it was too, or
takes degree, slots and fields away together, as the settings say.
-/

namespace CoefficientForm.Form

/-- Whether a reply says that the action was refused. -/
def Reply.IsRefusal : Reply → Prop
  | .degree (.error _) | .entered (.error _) | .submitted (.error _) => True
  | _ => False

variable {form other : Form}

/-! ## Entering -/

theorem enter_eq_error_iff {name : FieldName} {entry : String} {e : UnknownField} :
    form.enter name entry = .error e ↔ form.field? name = none ∧ e = ⟨name⟩ := by
  rw [enter]
  cases form.field? name with
  | none => simp [eq_comm]
  | some field => simp

theorem reply_enter_eq_error_iff {name : FieldName} {entry : String} {e : UnknownField} :
    (form.step (.enter name entry)).reply = .entered (.error e) ↔
      form.enter name entry = .error e := by
  rw [step]
  cases form.enter name entry with
  | ok after => simp
  | error cause => simp

/-! ## Submitting -/

theorem Consistent.of_submit_eq_error (h : form.Consistent) {e : SubmissionError}
    (hsubmit : form.submit = .error e) :
    e = .nothingShown ∨ ∃ name entry, form.entered? name = some entry ∧
      e = .invalidEntry name ⟨Text.trimmed entry⟩ := by
  rcases h with hnothing | ⟨degree, hshows⟩
  · rw [submit_of_degree_eq_none hnothing.degree_eq] at hsubmit
    cases hsubmit
    exact .inl rfl
  · obtain ⟨name, entry, -, hentry, -, heq, -⟩ := hshows.of_submit_eq_error hsubmit
    exact .inr ⟨name, entry, hentry, heq⟩

theorem SameFields.submit_eq (h : SameFields form other) : other.submit = form.submit := by
  have hfield : other.field? = form.field? := funext (field?_eq_of_fields h.fields_eq)
  rw [submit, submit, h.degree_eq, h.slots_eq, hfield]

/-! ## Going -/

theorem refuseDegree_of_keepFields (h : form.settings.keepFields = true) :
    form.refuseDegree = { form with banner := some form.settings.banner } := by
  simp only [refuseDegree, h, if_true]

theorem refuseDegree_of_not_keepFields (h : form.settings.keepFields = false) :
    form.refuseDegree =
      { form with
        degree := none, slots := [], fields := #[], banner := some form.settings.banner } := by
  simp only [refuseDegree, h, Bool.false_eq_true, if_false]
  rfl

theorem step_go_of_reply_error {refusal : DegreeRefusal}
    (h : (form.step .go).reply = .degree (.error refusal)) :
    (form.step .go).form = form.refuseDegree := by
  cases hcheck : form.checkDegree with
  | ok degree =>
      rw [step, hcheck] at h
      cases h
  | error refusal => exact step_go_of_error hcheck

/-- A refused action leaves the form as it was, unless it is to go. -/
theorem step_of_isRefusal {action : Action} (h : (form.step action).reply.IsRefusal) :
    action = .go ∧ (form.step action).form = form.refuseDegree ∨
      (form.step action).form = form := by
  cases action with
  | go =>
      cases hcheck : form.checkDegree with
      | ok degree =>
          rw [step, hcheck] at h
          exact h.elim
      | error refusal => exact .inl ⟨rfl, step_go_of_error hcheck⟩
  | enter name entry =>
      cases henter : form.enter name entry with
      | ok after =>
          rw [step, henter] at h
          exact h.elim
      | error e => exact .inr (step_enter_of_error henter)
  | submit => exact .inr rfl
  | typeDegree _ | dismissBanner | register _ | unregister => exact h.elim

/-- What a refused action leaves after every list of actions. -/
theorem refused_after_empty (settings : Settings) (actions : List Action) :
    let form := (empty settings).after actions
    (∀ action, action ≠ .go → (form.step action).reply.IsRefusal →
      (form.step action).form = form) ∧
    (∀ name entry e, (form.step (.enter name entry)).reply = .entered (.error e) →
      e = ⟨name⟩ ∧ form.field? name = none) ∧
    (∀ e, (form.step .submit).reply = .submitted (.error e) →
      e = .nothingShown ∨ ∃ name entry, form.entered? name = some entry ∧
        e = .invalidEntry name ⟨Text.trimmed entry⟩) ∧
    (settings.keepFields = true → ∀ refusal,
      (form.step .go).reply = .degree (.error refusal) →
        (form.step .go).form = { form with banner := some settings.banner } ∧
        ((form.step .go).form.step .submit).reply = (form.step .submit).reply ∧
        ((form.step .go).form.step .submit).deliveries = (form.step .submit).deliveries) ∧
    (settings.keepFields = false → ∀ refusal,
      (form.step .go).reply = .degree (.error refusal) →
        (form.step .go).form =
          { form with
            degree := none, slots := [], fields := #[], banner := some settings.banner }) ∧
    (∀ coefficients, (form.step .submit).reply = .submitted (.ok coefficients) →
      (form.step .submit).form = form ∧
      ((form.step .submit).form.step .submit).reply = .submitted (.ok coefficients)) := by
  intro form
  have hsettings : form.settings = settings := settings_after (empty settings) actions
  have hconsistent : form.Consistent := consistent_after_empty settings actions
  refine ⟨?_, ?_, ?_, ?_, ?_, ?_⟩
  · intro action hgo hrefusal
    exact (step_of_isRefusal hrefusal).resolve_left fun h => hgo h.1
  · intro name entry e hreply
    exact (enter_eq_error_iff.1 (reply_enter_eq_error_iff.1 hreply)).symm
  · intro e hreply
    apply hconsistent.of_submit_eq_error
    simpa only [step, Reply.submitted.injEq] using hreply
  · intro hkeep refusal hreply
    rw [← hsettings] at hkeep
    have hsubmit := (refuseDegree_sameFields hkeep).submit_eq
    have hreceiver : form.refuseDegree.receiver = form.receiver := by
      rw [refuseDegree_of_keepFields hkeep]
    rw [step_go_of_reply_error hreply]
    refine ⟨by rw [refuseDegree_of_keepFields hkeep, hsettings], ?_, ?_⟩
    · simp only [step, hsubmit]
    · simp only [step, deliveries, hsubmit, hreceiver]
  · intro hkeep refusal hreply
    rw [← hsettings] at hkeep
    rw [step_go_of_reply_error hreply, refuseDegree_of_not_keepFields hkeep, hsettings]
  · intro coefficients hreply
    exact ⟨rfl, hreply⟩

/-- A submission refused at the last slot, and a degree refused while fields are kept. -/
theorem refused_at_last_slot_and_out_of_range :
    let form := (empty ⟨⟨1, 4⟩, true, false⟩).after
      [.register "r", .typeDegree "2", .go, .enter ⟨0⟩ "x", .typeDegree "9"]
    (form.step .submit).form = form ∧
      (form.step .go).form =
        { form with banner := some "Error: the degree must be an integer between 1 and 4" } ∧
      ((form.step .go).form.step .submit).reply =
        .submitted (.error (.invalidEntry ⟨0⟩ ⟨"x"⟩)) := by
  intro form
  obtain ⟨hsame, -, -, hkept, -⟩ := refused_after_empty ⟨⟨1, 4⟩, true, false⟩
    [.register "r", .typeDegree "2", .go, .enter ⟨0⟩ "x", .typeDegree "9"]
  have hsubmit : (form.step .submit).reply = .submitted (.error (.invalidEntry ⟨0⟩ ⟨"x"⟩)) :=
    congrArg Reply.submitted (by decide +kernel)
  have hcheck : form.checkDegree = .error (.outOfRange (.ofUInt32 9)) := by decide +kernel
  have hrange : (form.step .go).reply = .degree (.error (.outOfRange (.ofUInt32 9))) := by
    rw [step, hcheck]
  obtain ⟨hgo, hreply, -⟩ := hkept rfl _ hrange
  refine ⟨hsame .submit (by decide) ?_, hgo, hreply.trans hsubmit⟩
  rw [hsubmit]
  trivial

end CoefficientForm.Form
