-- SUMMARY: A report written as JSON is read back as the same report.
import CoefficientForm.Proofs.Json.Printer
import CoefficientForm.Report.Json

/-!
# Reports through JSON

What is written for a report holds no numbers, so it is read back as the same JSON value. Writing
leaves out a factored form that is absent and intercepts that are empty, each at its own level, and
reading supplies at that level what was left out.
-/

namespace CoefficientForm

/-- Whether a value is an object with a member of that name. -/
def Json.HasMember (name : String) (json : Json) : Prop :=
  ∃ members value, json = .object members ∧ (some name, value) ∈ members

/-! ## Factored forms -/

namespace FactoredForm

theorem reread_toJson (factored : FactoredForm) : factored.toJson.reread = factored.toJson := by
  unfold toJson
  split <;> simp [Json.reread, Json.rereadMembers]

theorem texts?_map_ofString (texts : List String) :
    (Json.array (texts.map .ofString)).texts? = some texts := by
  rw [Json.texts?]
  induction texts with
  | nil => rfl
  | cons s rest ih =>
      rw [List.map_cons, List.mapM_cons, ih]
      rfl

theorem ofJson?_toJson (factored : FactoredForm) : ofJson? factored.toJson = some factored := by
  obtain ⟨expression, intercepts⟩ := factored
  cases intercepts with
  | nil => rfl
  | cons first rest =>
      show ofValues? (some (.ofString expression))
        (some (.array ((first :: rest).map .ofString))) = _
      simp only [ofValues?, texts?_map_ofString]
      rfl

theorem hasMember_intercepts_iff (factored : FactoredForm) :
    factored.toJson.HasMember "intercepts" ↔ factored.intercepts ≠ [] := by
  obtain ⟨expression, intercepts⟩ := factored
  cases intercepts with
  | nil => simp [Json.HasMember, toJson]
  | cons first rest => simp [Json.HasMember, toJson]

end FactoredForm

/-! ## Reports -/

namespace Report

theorem reread_toJson (report : Report) : report.toJson.reread = report.toJson := by
  unfold toJson
  split <;> simp [Json.reread, Json.rereadMembers, FactoredForm.reread_toJson]

theorem ofJson?_toJson (report : Report) : ofJson? report.toJson = some report := by
  obtain ⟨outcome, factored⟩ := report
  cases factored with
  | none => cases outcome <;> rfl
  | some factored =>
      have houtcome : Outcome.ofJson? (.ofString outcome.tag) = some outcome :=
        Outcome.ofTag?_tag outcome
      have hfactored := FactoredForm.ofJson?_toJson factored
      -- A factored form is written as an object, and so is never taken for an absent one.
      obtain ⟨members, hmembers⟩ : ∃ members, factored.toJson = .object members := ⟨_, rfl⟩
      rw [hmembers] at hfactored
      show ofValues? (some (.ofString outcome.tag)) (some factored.toJson) = _
      simp [ofValues?, houtcome, hmembers, hfactored]

theorem hasMember_factored_iff (report : Report) :
    report.toJson.HasMember "factored" ↔ report.factored ≠ none := by
  obtain ⟨outcome, factored⟩ := report
  cases factored with
  | none => simp [Json.HasMember, toJson]
  | some factored => simp [Json.HasMember, toJson]

/-- Every report is read back from what is written for it, whether it is valid or not. The factored
form is written exactly when there is one, and its intercepts exactly when there are any. -/
theorem ofJsonText?_text_toJson (report : Report) :
    ofJsonText? report.toJson.text = some report ∧
    (report.toJson.HasMember "factored" ↔ report.factored ≠ none) ∧
    ∀ factored, report.factored = some factored →
      (∃ members, report.toJson = .object members ∧ (some "factored", factored.toJson) ∈ members) ∧
      (factored.toJson.HasMember "intercepts" ↔ factored.intercepts ≠ []) := by
  refine ⟨?_, report.hasMember_factored_iff, ?_⟩
  · rw [ofJsonText?, Json.ofText?_text, reread_toJson]
    exact report.ofJson?_toJson
  · intro factored hfactored
    refine ⟨⟨_, rfl, ?_⟩, factored.hasMember_intercepts_iff⟩
    simp [hfactored]

/-- A factored form that has no place in the report, with all kinds of characters and no
intercepts. -/
theorem ofJsonText?_of_escaped_without_intercepts :
    let factored : FactoredForm := ⟨"\"\\/\x00\x1f\n\x7fé😀", []⟩
    let report : Report := ⟨.failed, some factored⟩
    Report.ofJsonText? report.toJson.text = some report ∧ report.toJson.HasMember "factored" ∧
      ¬ factored.toJson.HasMember "intercepts" := by
  intro factored report
  obtain ⟨hread, hfactored, hintercepts⟩ := ofJsonText?_text_toJson report
  refine ⟨hread, hfactored.2 (by simp [report]), ?_⟩
  rw [(hintercepts factored rfl).2]
  exact not_not_intro rfl

end Report

end CoefficientForm
