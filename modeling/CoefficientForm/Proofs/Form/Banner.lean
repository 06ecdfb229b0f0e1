-- SUMMARY: The shown degree and the banner as laws over the whole history of a form.
import CoefficientForm.Proofs.Form.Since

/-!
# Degree, banner and the history of a form

Going is the only action that changes which degree is shown, and it and dismissing the only ones
that change the banner. So both follow from how each going ended: what is shown is the degree
accepted last, unless the settings keep nothing and a later degree was refused, and the banner is
up when the last degree was refused and the banner was not dismissed since.
-/

namespace CoefficientForm.Form

/-- Whether an action, taken on a form, is to go, with that degree accepted. -/
def Accepts (degree : Degree) (form : Form) (action : Action) : Prop :=
  action = .go ∧ (form.step action).reply = .degree (.ok degree)

/-- Whether an action, taken on a form, is to go, with the degree refused for some reason. -/
def Refuses (form : Form) (action : Action) : Prop :=
  action = .go ∧ ∃ refusal, (form.step action).reply = .degree (.error refusal)

variable {form : Form} {action : Action}

/-! ## What one action does to the degree and the banner -/

/-- Whether two forms show the same degree in the same slots under the same banner. -/
structure SameVerdict (form other : Form) : Prop where
  degree_eq : other.degree = form.degree
  slots_eq : other.slots = form.slots
  banner_eq : other.banner = form.banner

theorem sameVerdict_of_enter {after : Form} {name : FieldName} {entry : String}
    (h : form.enter name entry = .ok after) : SameVerdict form after := by
  obtain ⟨field, -, rfl⟩ := enter_eq_ok_iff.1 h
  exact ⟨rfl, rfl, rfl⟩

theorem degree_refuseDegree (form : Form) :
    form.refuseDegree.degree = if form.settings.keepFields then form.degree else none := by
  unfold refuseDegree
  split <;> rfl

theorem accepts_go_iff {degree : Degree} :
    form.Accepts degree .go ↔ form.checkDegree = .ok degree := by
  rw [Accepts, step]
  cases form.checkDegree with
  | ok other => simp
  | error refusal => simp

theorem refuses_go_iff : form.Refuses .go ↔ ∃ refusal, form.checkDegree = .error refusal := by
  rw [Refuses, step]
  cases form.checkDegree with
  | ok degree => simp
  | error refusal => simp

/-- All that an action can do to the degree and the banner. -/
theorem verdict_cases (form : Form) (action : Action) :
    (∃ degree, form.Accepts degree action ∧ (form.step action).form = form.acceptDegree degree) ∨
    (form.Refuses action ∧ (form.step action).form = form.refuseDegree) ∨
    (action = .dismissBanner ∧ (form.step action).form = form.dismissBanner) ∨
    (action ≠ .go ∧ action ≠ .dismissBanner ∧ SameVerdict form (form.step action).form) := by
  cases action with
  | go =>
      cases hcheck : form.checkDegree with
      | ok degree => exact .inl ⟨degree, accepts_go_iff.2 hcheck, step_go_of_ok hcheck⟩
      | error refusal =>
          exact .inr (.inl ⟨refuses_go_iff.2 ⟨refusal, hcheck⟩, step_go_of_error hcheck⟩)
  | dismissBanner => exact .inr (.inr (.inl ⟨rfl, rfl⟩))
  | enter name entry =>
      refine .inr (.inr (.inr ⟨by simp, by simp, ?_⟩))
      cases henter : form.enter name entry with
      | ok after =>
          rw [step_enter_of_ok henter]
          exact sameVerdict_of_enter henter
      | error e =>
          rw [step_enter_of_error henter]
          exact ⟨rfl, rfl, rfl⟩
  | typeDegree _ | submit | register _ | unregister =>
      exact .inr (.inr (.inr ⟨by simp, by simp, rfl, rfl, rfl⟩))

/-- Whether an action, taken on a form, leaves the degree that is shown: no other is accepted, and
none is refused unless fields are kept. -/
def LeavesDegree (keepFields : Bool) (form : Form) (action : Action) : Prop :=
  (∀ degree, ¬ form.Accepts degree action) ∧ (keepFields = true ∨ ¬ form.Refuses action)

/-- Whether an action, taken on a form, leaves the banner as it is. -/
def LeavesBanner (_ : Form) (action : Action) : Prop :=
  action ≠ .go ∧ action ≠ .dismissBanner

theorem Accepts.not_refuses {degree : Degree} (h : form.Accepts degree action) :
    ¬ form.Refuses action := by
  rintro ⟨-, refusal, hrefusal⟩
  rw [h.2] at hrefusal
  cases hrefusal

theorem Accepts.unique {degree other : Degree} (h : form.Accepts degree action)
    (hother : form.Accepts other action) : degree = other := by
  have heq := hother.2
  rw [h.2] at heq
  cases heq
  rfl

theorem not_accepts_of_ne_go (h : action ≠ .go) (degree : Degree) : ¬ form.Accepts degree action :=
  fun haccepts => h haccepts.1

theorem not_refuses_of_ne_go (h : action ≠ .go) : ¬ form.Refuses action :=
  fun hrefuses => h hrefuses.1

theorem degree_step_iff {degree : Degree} :
    (form.step action).form.degree = some degree ↔
      form.Accepts degree action ∨
        form.degree = some degree ∧ form.LeavesDegree form.settings.keepFields action := by
  rcases verdict_cases form action with ⟨other, haccepts, hafter⟩ | ⟨hrefuses, hafter⟩ |
    ⟨rfl, hafter⟩ | ⟨hgo, -, hsame⟩
  · rw [hafter]
    constructor
    · rintro ⟨⟩
      exact .inl haccepts
    · rintro (hdegree | ⟨-, hnone, -⟩)
      · rw [hdegree.unique haccepts]
        rfl
      · exact absurd haccepts (hnone other)
  · rw [hafter, degree_refuseDegree]
    have hnone (other : Degree) : ¬ form.Accepts other action := fun h => h.not_refuses hrefuses
    cases hkeep : form.settings.keepFields with
    | true => simp [LeavesDegree, hnone]
    | false => simp [LeavesDegree, hnone, hrefuses]
  · have hnone (other : Degree) : ¬ form.Accepts other .dismissBanner :=
      not_accepts_of_ne_go (by simp) other
    have hnot : ¬ form.Refuses .dismissBanner := not_refuses_of_ne_go (by simp)
    rw [hafter]
    simp [LeavesDegree, hnone, hnot, dismissBanner]
  · rw [hsame.degree_eq]
    simp [LeavesDegree, not_accepts_of_ne_go hgo, not_refuses_of_ne_go hgo]

theorem banner_step_iff :
    (form.step action).form.banner.isSome = true ↔
      form.Refuses action ∨ form.banner.isSome = true ∧ form.LeavesBanner action := by
  rcases verdict_cases form action with ⟨degree, haccepts, hafter⟩ | ⟨hrefuses, hafter⟩ |
    ⟨rfl, hafter⟩ | ⟨hgo, hdismiss, hsame⟩
  · obtain rfl : action = .go := haccepts.1
    rw [hafter]
    simp [acceptDegree, haccepts.not_refuses, LeavesBanner]
  · rw [hafter]
    simp [refuseDegree, hrefuses]
  · have hnot : ¬ form.Refuses .dismissBanner := not_refuses_of_ne_go (by simp)
    rw [hafter]
    simp [dismissBanner, hnot, LeavesBanner]
  · rw [hsame.banner_eq]
    simp [not_refuses_of_ne_go hgo, LeavesBanner, hgo, hdismiss]

/-! ## The whole history -/

theorem degree_after_iff {start : Form} (hstart : start.degree = none) {actions : List Action}
    {degree : Degree} :
    (start.after actions).degree = some degree ↔
      start.Since (Accepts degree) (LeavesDegree start.settings.keepFields) actions := by
  apply after_iff_since (P := fun form => form.degree = some degree) (by simp [hstart])
  intro earlier action
  rw [degree_step_iff, settings_after]

theorem banner_after_iff {start : Form} (hstart : start.banner = none) {actions : List Action} :
    (start.after actions).banner.isSome = true ↔ start.Since Refuses LeavesBanner actions := by
  apply after_iff_since (P := fun form => form.banner.isSome = true) (by simp [hstart])
  intro earlier action
  exact banner_step_iff

/-- Whether the banner, if it is up, says what the settings say. -/
def BannerSaysSettings (form : Form) : Prop :=
  ∀ text, form.banner = some text → text = form.settings.banner

theorem bannerSaysSettings_step (form : Form) (action : Action) (h : form.BannerSaysSettings) :
    (form.step action).form.BannerSaysSettings := by
  intro text htext
  rw [settings_step]
  rcases verdict_cases form action with ⟨degree, -, hafter⟩ | ⟨-, hafter⟩ | ⟨-, hafter⟩ |
    ⟨-, -, hsame⟩
  · rw [hafter] at htext
    cases htext
  · rw [hafter] at htext
    exact (Option.some.inj htext).symm
  · rw [hafter] at htext
    cases htext
  · rw [hsame.banner_eq] at htext
    exact h text htext

/-- Whether fields are shown only while no banner is up, where the settings do not keep them. -/
def HidesUnderBanner (form : Form) : Prop :=
  form.settings.keepFields = false → form.degree = none ∨ form.banner = none

theorem hidesUnderBanner_step (form : Form) (action : Action) (h : form.HidesUnderBanner) :
    (form.step action).form.HidesUnderBanner := by
  intro hkeep
  rw [settings_step] at hkeep
  rcases verdict_cases form action with ⟨degree, -, hafter⟩ | ⟨-, hafter⟩ | ⟨-, hafter⟩ |
    ⟨-, -, hsame⟩
  · rw [hafter]
    exact .inr rfl
  · rw [hafter, degree_refuseDegree, hkeep]
    exact .inl rfl
  · rw [hafter]
    exact .inr rfl
  · rw [hsame.degree_eq, hsame.banner_eq]
    exact h hkeep

theorem sameVerdict_after (form : Form) {actions : List Action}
    (h : ∀ action ∈ actions, action ≠ .go ∧ action ≠ .dismissBanner) :
    SameVerdict form (form.after actions) := by
  induction actions generalizing form with
  | nil => exact ⟨rfl, rfl, rfl⟩
  | cons action rest ih =>
      obtain ⟨⟨hgo, hdismiss⟩, hrest⟩ := List.forall_mem_cons.1 h
      have hfirst : SameVerdict form (form.step action).form := by
        rcases verdict_cases form action with ⟨_, haccepts, -⟩ | ⟨hrefuses, -⟩ | ⟨rfl, -⟩ |
          ⟨-, -, hsame⟩
        · exact absurd haccepts.1 hgo
        · exact absurd hrefuses.1 hgo
        · exact absurd rfl hdismiss
        · exact hsame
      have hlater := ih (form.step action).form hrest
      exact ⟨hlater.degree_eq.trans hfirst.degree_eq, hlater.slots_eq.trans hfirst.slots_eq,
        hlater.banner_eq.trans hfirst.banner_eq⟩

/-- The shown degree and the banner after every list of actions. A degree is shown exactly when it
was accepted, no other was accepted since, and none was refused since or the settings keep fields.
The banner is up exactly when the last degree was refused and the banner was not dismissed since,
and it always says the same. So without fields being kept it never stands over fields, and between
one going and the next nothing but dismissing the banner changes any of this. -/
theorem degree_and_banner_after_empty (settings : Settings) (actions : List Action) :
    let start := empty settings
    let form := start.after actions
    (∀ degree, form.degree = some degree ↔
      start.Since (Accepts degree) (LeavesDegree settings.keepFields) actions) ∧
    (form.banner.isSome = true ↔ start.Since Refuses LeavesBanner actions) ∧
    (∀ text, form.banner = some text → text = settings.banner) ∧
    (settings.keepFields = false → form.degree = none ∨ form.banner = none) ∧
    (∀ between, (∀ action ∈ between, action ≠ .go ∧ action ≠ .dismissBanner) →
      (form.after between).degree = form.degree ∧ (form.after between).slots = form.slots ∧
        (form.after between).banner = form.banner) := by
  intro start form
  have hsettings : form.settings = settings := settings_after start actions
  refine ⟨fun degree => degree_after_iff rfl, banner_after_iff rfl, ?_, ?_, ?_⟩
  · have hbanner : form.BannerSaysSettings :=
      after_induction (by rintro _ ⟨⟩) bannerSaysSettings_step actions
    intro text htext
    rw [hbanner text htext, hsettings]
  · have hhides : form.HidesUnderBanner :=
      after_induction (fun _ => .inl rfl) hidesUnderBanner_step actions
    rw [← hsettings]
    exact hhides
  · intro between hbetween
    have hsame := form.sameVerdict_after hbetween
    exact ⟨hsame.degree_eq, hsame.slots_eq, hsame.banner_eq⟩

/-- Where fields are kept, the degree accepted first still stands under the banner of the second. -/
theorem degree_under_banner_of_keepFields :
    let start := empty ⟨⟨1, 4⟩, true, false⟩
    let actions : List Action := [.typeDegree "2", .go, .typeDegree "x", .go]
    start.Since (Accepts ⟨2⟩) (LeavesDegree true) actions ∧
      start.Since Refuses LeavesBanner actions ∧
      ((start.after actions).after [.enter ⟨0⟩ "7", .submit]).degree = some ⟨2⟩ := by
  intro start actions
  obtain ⟨hdegree, hbanner, -, -, hbetween⟩ :=
    degree_and_banner_after_empty ⟨⟨1, 4⟩, true, false⟩ actions
  have hshown : (start.after actions).degree = some ⟨2⟩ := by decide +kernel
  refine ⟨(hdegree ⟨2⟩).1 hshown, hbanner.1 (by decide +kernel), ?_⟩
  rw [(hbetween [.enter ⟨0⟩ "7", .submit] (by decide)).1]
  exact hshown

end CoefficientForm.Form
