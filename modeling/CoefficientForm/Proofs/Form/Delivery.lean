-- SUMMARY: What is delivered to receivers over a whole run.
import CoefficientForm.Proofs.Form.Since
import CoefficientForm.Proofs.Form.Submission

/-!
# Deliveries of a run

A submission that goes through is delivered once, to the receiver registered at that moment, and
nothing else is ever delivered. Who is registered follows from the history: whoever was registered
last, if there has been no end of it since.
-/

namespace CoefficientForm.Form

variable {form start : Form} {action : Action} {receiver : String}

/-! ## The registered receiver -/

/-- Whether an action leaves it as it is who is registered. -/
def LeavesReceiver (action : Action) : Prop :=
  action ≠ .unregister ∧ ∀ receiver, action ≠ .register receiver

theorem receiver_step_iff :
    (form.step action).form.receiver = some receiver ↔
      action = .register receiver ∨ form.receiver = some receiver ∧ LeavesReceiver action := by
  cases action with
  | register other => simp [step, withReceiver, LeavesReceiver]
  | unregister => simp [step, withReceiver, LeavesReceiver]
  | go =>
      have hreceiver : (form.step .go).form.receiver = form.receiver := by
        cases hcheck : form.checkDegree with
        | ok degree => rw [step_go_of_ok hcheck, acceptDegree]
        | error refusal =>
            rw [step_go_of_error hcheck]
            simp only [refuseDegree]
            split <;> rfl
      simp [hreceiver, LeavesReceiver]
  | enter name entry =>
      have hreceiver : (form.step (.enter name entry)).form.receiver = form.receiver := by
        cases henter : form.enter name entry with
        | ok after =>
            obtain ⟨field, -, hafter⟩ := enter_eq_ok_iff.1 henter
            rw [step_enter_of_ok henter, hafter]
        | error e => rw [step_enter_of_error henter]
      simp [hreceiver, LeavesReceiver]
  | typeDegree _ | submit | dismissBanner =>
      simp [step, withDegreeText, dismissBanner, LeavesReceiver]

theorem receiver_after_iff (hstart : start.receiver = none) {actions : List Action} :
    (start.after actions).receiver = some receiver ↔
      start.Since (fun _ action => action = .register receiver)
        (fun _ action => LeavesReceiver action) actions := by
  apply after_iff_since (P := fun form => form.receiver = some receiver) (by simp [hstart])
  intro earlier action
  exact receiver_step_iff

/-- Whoever is registered was the last to be, with no end of it since. -/
theorem receiver_after_eq_some_iff (hstart : start.receiver = none) {actions : List Action} :
    (start.after actions).receiver = some receiver ↔
      ∃ earlier later, actions = earlier ++ .register receiver :: later ∧
        ∀ action ∈ later, action ≠ .unregister ∧ ∀ other, action ≠ .register other := by
  rw [receiver_after_iff hstart]
  constructor
  · rintro ⟨earlier, _, later, heq, rfl, halways⟩
    exact ⟨earlier, later, heq, always_iff_forall_mem.1 halways⟩
  · rintro ⟨earlier, later, heq, hlater⟩
    exact ⟨earlier, _, later, heq, rfl, always_iff_forall_mem.2 hlater⟩

/-! ## What one action delivers -/

/-- What is due to a receiver, if there is one, after a reply. -/
def Reply.delivery? (receiver : Option String) : Reply → Option Delivery
  | .submitted (.ok coefficients) => receiver.map fun name => ⟨name, coefficients⟩
  | _ => none

theorem reply_of_delivery? {registered : Option String} {reply : Reply} {delivery : Delivery}
    (h : reply.delivery? registered = some delivery) :
    reply = .submitted (.ok delivery.coefficients) := by
  unfold Reply.delivery? at h
  split at h
  · obtain ⟨name, -, rfl⟩ := Option.map_eq_some_iff.1 h
    rfl
  · cases h

theorem deliveries_step (form : Form) (action : Action) :
    (form.step action).deliveries = ((form.step action).reply.delivery? form.receiver).toList := by
  cases action with
  | submit =>
      simp only [step, deliveries]
      cases form.receiver with
      | none => cases form.submit <;> rfl
      | some receiver => cases form.submit <;> rfl
  | go => cases hcheck : form.checkDegree <;> simp [step, hcheck, Reply.delivery?]
  | enter name entry =>
      cases henter : form.enter name entry <;> simp [step, henter, Reply.delivery?]
  | typeDegree _ | dismissBanner | register _ | unregister => rfl

theorem step_of_reply_submitted {result : Except SubmissionError Coefficients}
    (h : (form.step action).reply = .submitted result) :
    action = .submit ∧ form.submit = result := by
  cases action with
  | submit =>
      cases h
      exact ⟨rfl, rfl⟩
  | go => cases hcheck : form.checkDegree <;> simp [step, hcheck] at h
  | enter name entry => cases henter : form.enter name entry <;> simp [step, henter] at h
  | typeDegree _ | dismissBanner | register _ | unregister => cases h

/-! ## What a whole run delivers -/

/-- What is due at an index of a run, given to whoever is registered by then. -/
def deliveryAt? (start : Form) (actions : List Action) (index : Nat) : Option Delivery :=
  (start.run actions)[index]?.bind fun response =>
    response.reply.delivery? (start.after (actions.take index)).receiver

theorem deliveryAt?_concat_of_lt {actions : List Action} {index : Nat}
    (h : index < actions.length) :
    start.deliveryAt? (actions ++ [action]) index = start.deliveryAt? actions index := by
  have hrun : index < (start.run actions).length := by rwa [length_run]
  rw [deliveryAt?, deliveryAt?, run_concat, List.getElem?_append_left hrun,
    List.take_append_of_le_length (Nat.le_of_lt h)]

theorem deliveryAt?_concat_length (actions : List Action) :
    start.deliveryAt? (actions ++ [action]) actions.length =
      ((start.after actions).step action).reply.delivery? (start.after actions).receiver := by
  rw [deliveryAt?, getElem?_run, List.take_left, List.getElem?_concat_length]
  rfl

theorem flatMap_deliveries_run (start : Form) (actions : List Action) :
    (start.run actions).flatMap Response.deliveries =
      (List.range actions.length).filterMap (start.deliveryAt? actions) := by
  induction actions using List.reverseRecOn with
  | nil => rfl
  | append_singleton init last ih =>
      have hinit : (List.range init.length).filterMap (start.deliveryAt? (init ++ [last])) =
          (List.range init.length).filterMap (start.deliveryAt? init) := by
        apply List.filterMap_congr
        intro index hindex
        exact deliveryAt?_concat_of_lt (List.mem_range.1 hindex)
      have hlast : [init.length].filterMap (start.deliveryAt? (init ++ [last])) =
          ((start.after init).step last).deliveries := by
        rw [List.filterMap_cons, deliveryAt?_concat_length, deliveries_step]
        cases ((start.after init).step last).reply.delivery? (start.after init).receiver <;> rfl
      rw [run_concat, List.flatMap_append, List.flatMap_singleton, ih, List.length_append,
        List.length_singleton, List.range_succ, List.filterMap_append, hinit, hlast]

/-- The deliveries of every run. They are, in order, one for each submission that goes through while
somebody is registered, with the coefficients in its reply. Registered is whoever was registered
last, with no end of it since. The coefficients are those of the entries at that moment, and no
other action and no refused submission delivers anything. -/
theorem deliveries_after_empty (settings : Settings) (actions : List Action) :
    let start := empty settings
    (start.run actions).flatMap Response.deliveries =
      (List.range actions.length).filterMap (start.deliveryAt? actions) ∧
    (∀ earlier receiver, (start.after earlier).receiver = some receiver ↔
      ∃ before after, earlier = before ++ .register receiver :: after ∧
        ∀ action ∈ after, action ≠ .unregister ∧ ∀ other, action ≠ .register other) ∧
    ∀ index response, (start.run actions)[index]? = some response →
      (∀ delivery ∈ response.deliveries,
        response.reply = .submitted (.ok delivery.coefficients)) ∧
      ∀ coefficients, response.reply = .submitted (.ok coefficients) →
        let form := start.after (actions.take index)
        actions[index]? = some .submit ∧ form.submit = .ok coefficients ∧
        ∃ degree, form.degree = some degree ∧
          coefficients.values.size = degree.value.toNat + 1 ∧
          ∀ name : FieldName, name.exponent ≤ degree.value →
            ∃ entry value, form.entered? name = some entry ∧ coefficientOf entry = .ok value ∧
              coefficients.get? name.exponent = some value := by
  intro start
  refine ⟨flatMap_deliveries_run start actions, fun _ _ => receiver_after_eq_some_iff rfl, ?_⟩
  intro index response hresponse
  rw [getElem?_run, Option.map_eq_some_iff] at hresponse
  obtain ⟨action, haction, rfl⟩ := hresponse
  constructor
  · intro delivery hdelivery
    rw [deliveries_step, Option.mem_toList] at hdelivery
    exact reply_of_delivery? hdelivery
  · intro coefficients hreply form
    obtain ⟨rfl, hsubmit⟩ := step_of_reply_submitted hreply
    refine ⟨haction, hsubmit, ?_⟩
    rcases consistent_after_empty settings (actions.take index) with hnothing | ⟨degree, hshows⟩
    · have hnone := submit_of_degree_eq_none hnothing.degree_eq
      rw [hnone] at hsubmit
      cases hsubmit
    · exact ⟨degree, hshows.degree_eq, hshows.of_submit_eq_ok hsubmit⟩

/-- Two receivers, one refused submission between them, and one that nobody receives. -/
theorem deliveries_to_two_receivers :
    let start := empty ⟨⟨1, 4⟩, true, false⟩
    let actions : List Action :=
      [.register "a", .typeDegree "1", .go, .submit, .enter ⟨0⟩ "x", .submit, .enter ⟨0⟩ "2",
        .register "b", .submit, .unregister, .submit]
    let first : Coefficients := ⟨#[.zero false, .zero false]⟩
    let second : Coefficients := ⟨#[.ofUInt32 2, .zero false]⟩
    (List.range actions.length).filterMap (start.deliveryAt? actions) =
      [⟨"a", first⟩, ⟨"b", second⟩] ∧
    (start.after (actions.take 8)).submit = .ok second ∧
    ∃ entry value, (start.after (actions.take 8)).entered? ⟨0⟩ = some entry ∧
      coefficientOf entry = .ok value ∧ second.get? 0 = some value := by
  intro start actions first second
  obtain ⟨hdeliveries, -, hresponses⟩ := deliveries_after_empty ⟨⟨1, 4⟩, true, false⟩ actions
  have hsubmit : (start.after (actions.take 8)).submit = .ok second := by decide +kernel
  have hreply : ((start.after (actions.take 8)).step .submit).reply = .submitted (.ok second) :=
    congrArg Reply.submitted hsubmit
  have hresponse : (start.run actions)[8]? = some ((start.after (actions.take 8)).step .submit) :=
    getElem?_run start actions 8
  obtain ⟨-, hok, degree, -, -, hentries⟩ := (hresponses 8 _ hresponse).2 second hreply
  refine ⟨?_, hok, hentries ⟨0⟩ (UInt32.le_iff_toNat_le.2 (Nat.zero_le _))⟩
  rw [← hdeliveries]
  decide +kernel

end CoefficientForm.Form
