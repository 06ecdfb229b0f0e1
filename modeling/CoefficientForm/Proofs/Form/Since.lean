-- SUMMARY: What has been the case since some action of a history.
import CoefficientForm.Proofs.Form.Step

/-!
# Since

Much of what a form is depends on its history in one way: some action set it, and every action
since then has left it as it was. An action is judged together with the form that it is taken on,
because what it does depends on that form.
-/

namespace CoefficientForm.Form

variable {event kept : Form → Action → Prop} {start : Form}

/-- Whether each of a list of actions, taken in turn, satisfies a condition. -/
def Always (kept : Form → Action → Prop) : Form → List Action → Prop
  | _, [] => True
  | form, action :: rest => kept form action ∧ Always kept (form.step action).form rest

/-- Whether some action of a list was the event, and every action after it satisfies a
condition. -/
def Since (event kept : Form → Action → Prop) (start : Form) (actions : List Action) : Prop :=
  ∃ earlier action later, actions = earlier ++ action :: later ∧
    event (start.after earlier) action ∧ Always kept (start.after (earlier ++ [action])) later

theorem always_concat {actions : List Action} {action : Action} :
    Always kept start (actions ++ [action]) ↔
      Always kept start actions ∧ kept (start.after actions) action := by
  induction actions generalizing start with
  | nil => simp [Always]
  | cons first rest ih => simp only [List.cons_append, Always, ih, after_cons, and_assoc]

/-- A condition that does not look at the form is one on each action by itself. -/
theorem always_iff_forall_mem {keeps : Action → Prop} {actions : List Action} :
    Always (fun _ action => keeps action) start actions ↔ ∀ action ∈ actions, keeps action := by
  induction actions generalizing start with
  | nil => simp [Always]
  | cons first rest ih => simp only [Always, ih, List.forall_mem_cons]

theorem not_since_nil : ¬ Since event kept start [] := by
  rintro ⟨earlier, action, later, hnil, -⟩
  exact List.append_ne_nil_of_right_ne_nil _ (List.cons_ne_nil _ _) hnil.symm

/-- The last action is the event, or it keeps what has been the case since an earlier one. -/
theorem since_concat {actions : List Action} {action : Action} :
    Since event kept start (actions ++ [action]) ↔
      event (start.after actions) action ∨
        Since event kept start actions ∧ kept (start.after actions) action := by
  constructor
  · rintro ⟨earlier, first, later, heq, hevent, halways⟩
    rcases List.eq_nil_or_concat later with rfl | ⟨later, last, rfl⟩
    · obtain ⟨rfl, hlast⟩ := List.append_inj' heq rfl
      cases hlast
      exact .inl hevent
    · rw [List.concat_eq_append, ← List.cons_append, ← List.append_assoc] at heq
      obtain ⟨rfl, hlast⟩ := List.append_inj' heq rfl
      cases hlast
      rw [List.concat_eq_append, always_concat, ← after_append, List.append_assoc] at halways
      exact .inr ⟨⟨earlier, first, later, rfl, hevent, halways.1⟩, halways.2⟩
  · rintro (hevent | ⟨⟨earlier, first, later, rfl, hevent, halways⟩, hkept⟩)
    · exact ⟨actions, action, [], rfl, hevent, trivial⟩
    · refine ⟨earlier, first, later ++ [action], by simp, hevent, always_concat.2 ⟨halways, ?_⟩⟩
      rwa [← after_append, List.append_assoc]

/-- Where each step brings about a property of the form or keeps it, the property holds since it was
brought about last. -/
theorem after_iff_since {P : Form → Prop} (hstart : ¬ P start)
    (hstep : ∀ earlier action, P ((start.after earlier).step action).form ↔
      event (start.after earlier) action ∨
        P (start.after earlier) ∧ kept (start.after earlier) action)
    (actions : List Action) : P (start.after actions) ↔ Since event kept start actions := by
  induction actions using List.reverseRecOn with
  | nil => exact iff_of_false hstart not_since_nil
  | append_singleton init last ih => rw [after_concat, hstep, ih, since_concat]

end CoefficientForm.Form
