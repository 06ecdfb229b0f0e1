-- SUMMARY: The entries that denote a coefficient.
import Mathlib.Tactic
import CoefficientForm.Entry

/-!
# Entries

An entry resolves when it is blank or a finite number. Exactly then it denotes a coefficient, and
that is finite. The refusal of any other entry holds what was typed.
-/

namespace CoefficientForm

/-- Whether an entry is blank or a finite number, whatever blanks stand around it. -/
def Resolves (entry : String) : Prop :=
  Text.trimmed entry = "" ∨
    ∃ value, Binary64.ofText? (Text.trimmed entry) = some value ∧ value.isFinite = true

theorem coefficientOf_eq_ok_iff {entry : String} {value : Binary64} :
    coefficientOf entry = .ok value ↔
      (Text.trimmed entry = "" ∧ value = .zero false) ∨
        (Text.trimmed entry ≠ "" ∧ Binary64.ofText? (Text.trimmed entry) = some value ∧
          value.isFinite = true) := by
  unfold coefficientOf
  by_cases hblank : Text.trimmed entry = ""
  · simp only [hblank, if_true, Except.ok.injEq, true_and, ne_eq, not_true_eq_false, false_and,
      or_false]
    exact eq_comm
  · simp only [hblank, if_false, false_and, false_or, ne_eq, not_false_eq_true, true_and]
    cases hread : Binary64.ofText? (Text.trimmed entry) with
    | none => simp
    | some read =>
        by_cases hfinite : read.isFinite = true
        · simp only [hfinite, if_true, Except.ok.injEq, Option.some.injEq]
          constructor
          · rintro rfl
            exact ⟨rfl, hfinite⟩
          · exact And.left
        · simp only [hfinite, Bool.false_eq_true, if_false, Option.some.injEq, reduceCtorEq, false_iff]
          rintro ⟨rfl, h⟩
          exact hfinite h

theorem isFinite_of_coefficientOf {entry : String} {value : Binary64}
    (h : coefficientOf entry = .ok value) : value.isFinite = true := by
  rcases coefficientOf_eq_ok_iff.1 h with ⟨-, rfl⟩ | ⟨-, -, hfinite⟩
  · rfl
  · exact hfinite

theorem resolves_of_coefficientOf {entry : String} {value : Binary64}
    (h : coefficientOf entry = .ok value) : Resolves entry := by
  rcases coefficientOf_eq_ok_iff.1 h with ⟨hblank, -⟩ | ⟨-, hread, hfinite⟩
  · exact .inl hblank
  · exact .inr ⟨value, hread, hfinite⟩

theorem coefficientOf_of_resolves {entry : String} (h : Resolves entry) :
    ∃ value, coefficientOf entry = .ok value := by
  by_cases hblank : Text.trimmed entry = ""
  · exact ⟨.zero false, coefficientOf_eq_ok_iff.2 (.inl ⟨hblank, rfl⟩)⟩
  · obtain ⟨value, hread, hfinite⟩ := h.resolve_left hblank
    exact ⟨value, coefficientOf_eq_ok_iff.2 (.inr ⟨hblank, hread, hfinite⟩)⟩

theorem coefficientOf_of_not_resolves {entry : String} (h : ¬ Resolves entry) :
    coefficientOf entry = .error ⟨Text.trimmed entry⟩ := by
  unfold Resolves at h
  push Not at h
  obtain ⟨hblank, hnumber⟩ := h
  simp only [coefficientOf, hblank, if_false]
  cases hread : Binary64.ofText? (Text.trimmed entry) with
  | none => rfl
  | some value => simp [hnumber value hread]

theorem coefficientOf_empty : coefficientOf "" = .ok (.zero false) := rfl

theorem resolves_empty : Resolves "" := resolves_of_coefficientOf coefficientOf_empty

end CoefficientForm
