-- SUMMARY: Going forgets the past of a form whose settings keep nothing.
import CoefficientForm.Proofs.Form.History

/-!
# Forgetting

Where the settings keep neither fields nor entries, going looks at nothing of a form but its degree
text and its receiver. It answers, and leaves behind, what it would on a new form into which that
degree was typed. So two pasts that end in the same degree text with the same receiver can no longer
be told apart once the user has gone, whatever is done from then on.
-/

namespace CoefficientForm.Form

/-- A new form of the same settings, into which the same degree was typed and at which the same
receiver was registered. -/
def renewed (form : Form) : Form :=
  ((empty form.settings).withDegreeText form.degreeText).withReceiver form.receiver

variable {form : Form}

/-! ## What going looks at -/

theorem checkDegree_renewed (form : Form) : form.renewed.checkDegree = form.checkDegree := rfl

theorem newField_of_discarded (h : form.settings.keepEntries = false) (name : FieldName) :
    form.newField name = Field.ofName name := by
  rw [newField, initialEntry_of_discarded h]
  rfl

theorem acceptDegree_renewed (h : form.settings.keepEntries = false) (degree : Degree) :
    form.renewed.acceptDegree degree = form.acceptDegree degree := by
  have hrenewed : form.renewed.settings.keepEntries = false := h
  simp only [acceptDegree, newField_of_discarded h, newField_of_discarded hrenewed]
  rfl

theorem refuseDegree_renewed (h : form.settings.keepFields = false) :
    form.renewed.refuseDegree = form.refuseDegree := by
  have hrenewed : form.renewed.settings.keepFields = false := h
  simp only [refuseDegree, h, hrenewed, Bool.false_eq_true, if_false]
  rfl

/-- The whole response to going is that of the new form: the form left behind, the reply and the
log. -/
theorem step_go_renewed (hentries : form.settings.keepEntries = false)
    (hfields : form.settings.keepFields = false) : form.renewed.step .go = form.step .go := by
  simp only [step, checkDegree_renewed]
  cases form.checkDegree with
  | ok degree => simp only [acceptDegree_renewed hentries]
  | error refusal =>
      simp only [refuseDegree_renewed hfields]
      rfl

/-! ## Two pasts -/

/-- Whatever two users did before, if the settings keep nothing and the forms they arrived at hold
the same degree text and the same receiver, then going answers both alike, and every list of later
actions has the same responses for both: the same replies, logs and deliveries, and after each
action the same form. -/
theorem run_go_of_two_pasts (settings : Settings) (hentries : settings.keepEntries = false)
    (hfields : settings.keepFields = false) (actions others : List Action) :
    let form := (empty settings).after actions
    let other := (empty settings).after others
    form.degreeText = other.degreeText → form.receiver = other.receiver →
      (form.step .go).reply = (other.step .go).reply ∧
      ∀ later, form.run (.go :: later) = other.run (.go :: later) := by
  intro form other htext hreceiver
  have hform : form.settings = settings := settings_after (empty settings) actions
  have hother : other.settings = settings := settings_after (empty settings) others
  have hrenewed : form.renewed = other.renewed := by
    rw [renewed, renewed, htext, hreceiver, hform, hother]
  have hgo : form.step .go = other.step .go := by
    calc form.step .go = form.renewed.step .go :=
          (step_go_renewed (hform ▸ hentries) (hform ▸ hfields)).symm
      _ = other.renewed.step .go := by rw [hrenewed]
      _ = other.step .go := step_go_renewed (hother ▸ hentries) (hother ▸ hfields)
  refine ⟨congrArg Response.reply hgo, ?_⟩
  intro later
  rw [run, run, hgo]

/-- One past left a filled field behind and the other a banner. -/
theorem run_go_after_filled_and_refused :
    let settings : Settings := ⟨⟨1, 4⟩, false, false⟩
    let form := (empty settings).after
      [.register "r", .typeDegree "2", .go, .enter ⟨1⟩ "7", .typeDegree "3"]
    let other := (empty settings).after
      [.typeDegree "x", .go, .register "r", .typeDegree "3"]
    form.entered? ⟨1⟩ ≠ other.entered? ⟨1⟩ ∧ form.banner ≠ other.banner ∧
      (form.step .go).reply = (other.step .go).reply ∧
      form.run [.go, .enter ⟨0⟩ "5", .submit] = other.run [.go, .enter ⟨0⟩ "5", .submit] := by
  intro settings form other
  obtain ⟨hreply, hrun⟩ := run_go_of_two_pasts settings rfl rfl
    [.register "r", .typeDegree "2", .go, .enter ⟨1⟩ "7", .typeDegree "3"]
    [.typeDegree "x", .go, .register "r", .typeDegree "3"] (by decide +kernel) (by decide +kernel)
  exact ⟨by decide +kernel, by decide +kernel, hreply, hrun _⟩

end CoefficientForm.Form
