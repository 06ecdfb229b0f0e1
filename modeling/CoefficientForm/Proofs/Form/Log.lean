-- SUMMARY: What each action on a form logs.
import CoefficientForm.Proofs.Form.Submission

/-!
# Log of a form

An action is logged by one record at most, and its reply says by which. The fields made for a degree
would warn of every correction to their exponents. But an exponent of 32 bits needs none, so that
an accepted degree is logged by its own record alone, however large it is.
-/

namespace CoefficientForm

theorem Field.warnings_ofName (name : FieldName) : (ofName name).warnings = [] := by
  rw [warnings, (isFor_ofName name).shown_eq]
  rfl

namespace Form

theorem acceptanceLog_eq (degree : Degree) :
    acceptanceLog degree =
      [⟨.debug, "regenerated term fields",
        [("degree", degree.text), ("fields", toString degree.termCount)]⟩] := by
  have hwarnings : (degree.exponents.flatMap fun e => (Field.ofName ⟨e⟩).warnings) = [] := by
    rw [List.flatMap_eq_nil_iff]
    intro e _
    exact Field.warnings_ofName ⟨e⟩
  rw [acceptanceLog, hwarnings, List.nil_append]

/-- The warnings and errors of a log. -/
def severe (log : List LogRecord) : List LogRecord :=
  log.filter fun record => record.level ≠ .debug

theorem severe_acceptanceLog_append (degree : Degree) (rest : List LogRecord) :
    severe (acceptanceLog degree ++ rest) = severe rest := by
  rw [acceptanceLog_eq]
  rfl

/-- The record that is due after a reply of a form, if any. -/
def Reply.record? (form : Form) : Reply → Option LogRecord
  | .degree (.ok accepted) =>
    some ⟨.debug, "regenerated term fields",
      [("degree", accepted.text), ("fields", toString accepted.termCount)]⟩
  | .degree (.error refusal) =>
    some ⟨.warning, s!"degree rejected: {refusal.message}", [("input", form.degreeText)]⟩
  | .submitted (.ok _) =>
    form.degree.map fun shown => ⟨.debug, "coefficients submitted", [("degree", shown.text)]⟩
  | .submitted (.error e) =>
    form.degree.map fun _ => ⟨.error, s!"submission aborted: {e.message}", []⟩
  | .done | .entered _ => none

variable {form : Form} {action : Action}

/-- Whatever the form and the action are, nothing is logged but the record that is due. -/
theorem log_step (form : Form) (action : Action) :
    (form.step action).log = ((form.step action).reply.record? form).toList := by
  cases action with
  | go =>
      rw [step]
      cases form.checkDegree with
      | ok degree => exact acceptanceLog_eq degree
      | error refusal => rfl
  | enter name entry =>
      rw [step]
      cases form.enter name entry <;> rfl
  | submit =>
      simp only [step, submissionLog]
      cases hdegree : form.degree with
      | none => cases form.submit <;> simp [Reply.record?, hdegree]
      | some degree => cases form.submit <;> simp [Reply.record?, hdegree]
  | typeDegree _ | dismissBanner | register _ | unregister => rfl

theorem log_of_reply {reply : Reply} (h : (form.step action).reply = reply) :
    (form.step action).log = (reply.record? form).toList := by
  rw [log_step, h]

theorem log_eq_nil (hgo : action ≠ .go) (hsubmit : action ≠ .submit) :
    (form.step action).log = [] := by
  cases action with
  | go => exact absurd rfl hgo
  | submit => exact absurd rfl hsubmit
  | enter name entry =>
      rw [step]
      cases form.enter name entry <;> rfl
  | typeDegree _ | dismissBanner | register _ | unregister => rfl

/-- What is logged after every list of actions. Going is logged by one record, with the degree and
the number of its fields, or with the text typed and why it was refused. So is submitting, with the
degree or with what was wrong, unless nothing is shown. No other action is logged. -/
theorem log_after_empty (settings : Settings) (actions : List Action) :
    let form := (empty settings).after actions
    (∀ degree, (form.step .go).reply = .degree (.ok degree) →
      (form.step .go).log =
        [⟨.debug, "regenerated term fields",
          [("degree", toString degree.value.toNat),
            ("fields", toString (degree.value.toNat + 1))]⟩]) ∧
    (∀ refusal, (form.step .go).reply = .degree (.error refusal) →
      (form.step .go).log =
        [⟨.warning, s!"degree rejected: {refusal.message}", [("input", form.degreeText)]⟩]) ∧
    (∀ coefficients, (form.step .submit).reply = .submitted (.ok coefficients) →
      ∃ degree, form.degree = some degree ∧
        (form.step .submit).log =
          [⟨.debug, "coefficients submitted", [("degree", toString degree.value.toNat)]⟩]) ∧
    (∀ e, (form.step .submit).reply = .submitted (.error e) → e ≠ .nothingShown →
      (form.step .submit).log = [⟨.error, s!"submission aborted: {e.message}", []⟩]) ∧
    (form.degree = none → (form.step .submit).log = []) ∧
    (∀ action, action ≠ .go → action ≠ .submit → (form.step action).log = []) := by
  intro form
  have hdegree : ∀ result, (form.step .submit).reply = .submitted result →
      result ≠ .error .nothingShown → ∃ degree, form.degree = some degree := by
    intro result hreply hresult
    rw [← Option.ne_none_iff_exists']
    intro hnone
    cases hreply
    exact hresult (submit_of_degree_eq_none hnone)
  refine ⟨fun degree => log_of_reply, fun refusal => log_of_reply, ?_, ?_, ?_, ?_⟩
  · intro coefficients hreply
    obtain ⟨degree, hshown⟩ := hdegree _ hreply (by simp)
    refine ⟨degree, hshown, ?_⟩
    rw [log_of_reply hreply, Reply.record?, hshown]
    rfl
  · intro e hreply he
    obtain ⟨degree, hshown⟩ := hdegree _ hreply (by simpa using he)
    rw [log_of_reply hreply, Reply.record?, hshown]
    rfl
  · intro hnone
    simp only [step, submissionLog, hnone]
  · exact fun action => log_eq_nil

/-- The largest degree there is, accepted without a warning, with nothing to submit before. Then
blank fields submitted, one of them filled with no number, and a degree refused while they stay. -/
theorem log_of_largest_degree_and_refusals :
    let largest := (empty ⟨⟨1, 4294967295⟩, true, false⟩).after [.typeDegree "4294967295"]
    let blank := (empty ⟨⟨1, 4⟩, true, false⟩).after [.typeDegree "1", .go, .typeDegree " 9 "]
    let filled := (empty ⟨⟨1, 4⟩, true, false⟩).after
      [.typeDegree "1", .go, .typeDegree " 9 ", .enter ⟨0⟩ "x"]
    (largest.step .submit).log = [] ∧
      (largest.step .go).log =
        [⟨.debug, "regenerated term fields",
          [("degree", "4294967295"), ("fields", "4294967296")]⟩] ∧
      (blank.step .submit).log = [⟨.debug, "coefficients submitted", [("degree", "1")]⟩] ∧
      (blank.step (.enter ⟨0⟩ "x")).log = [] ∧
      (filled.step .submit).log =
        [⟨.error, "submission aborted: entry for x^0 is invalid: 'x' is not a number", []⟩] ∧
      (filled.step .go).log =
        [⟨.warning, "degree rejected: degree 9 is out of range", [("input", " 9 ")]⟩] := by
  intro largest blank filled
  obtain ⟨haccepted, -, -, -, hnothing, -⟩ :=
    log_after_empty ⟨⟨1, 4294967295⟩, true, false⟩ [.typeDegree "4294967295"]
  obtain ⟨-, -, hsubmitted, -, -, hother⟩ :=
    log_after_empty ⟨⟨1, 4⟩, true, false⟩ [.typeDegree "1", .go, .typeDegree " 9 "]
  obtain ⟨-, hrefused, -, haborted, -⟩ :=
    log_after_empty ⟨⟨1, 4⟩, true, false⟩
      [.typeDegree "1", .go, .typeDegree " 9 ", .enter ⟨0⟩ "x"]
  have hlargest : largest.checkDegree = .ok ⟨4294967295⟩ := by decide +kernel
  have hzeros : blank.submit = .ok ⟨#[.zero false, .zero false]⟩ := by decide +kernel
  have hshown : blank.degree = some ⟨1⟩ := by decide +kernel
  have hentry : filled.submit = .error (.invalidEntry ⟨0⟩ ⟨"x"⟩) := by decide +kernel
  have hrange : filled.checkDegree = .error (.outOfRange (.ofUInt32 9)) := by decide +kernel
  refine ⟨hnothing rfl, haccepted ⟨4294967295⟩ ?_, ?_, hother _ (by simp) (by simp),
    (haborted _ (congrArg Reply.submitted hentry) (by simp)).trans ?_,
    (hrefused (.outOfRange (.ofUInt32 9)) ?_).trans ?_⟩
  · rw [step, hlargest]
  · obtain ⟨degree, hdegree, hlog⟩ := hsubmitted _ (congrArg Reply.submitted hzeros)
    obtain rfl : ⟨1⟩ = degree := Option.some.inj (hshown.symm.trans hdegree)
    exact hlog
  · decide +kernel
  · rw [step, hrange]
  · decide +kernel

end Form

end CoefficientForm
