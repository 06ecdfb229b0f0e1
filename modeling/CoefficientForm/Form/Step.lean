-- SUMMARY: The actions on a form, and what each one answers, logs and delivers.
import CoefficientForm.Form.Basic

/-!
# Steps

Everything that is done to a form is an action. A step gives the form after the action, the
reply, what is logged, and what is delivered to the receiver. A run is a list of actions, taken
in turn.
-/

namespace CoefficientForm.Form

inductive Action where
  | typeDegree (text : String)
  | go
  | enter (name : FieldName) (entry : String)
  | submit
  | dismissBanner
  | register (receiver : String)
  | unregister
deriving DecidableEq

inductive Reply where
  | done
  | degree (result : Except DegreeRefusal Degree)
  | entered (result : Except UnknownField Unit)
  | submitted (result : Except SubmissionError Coefficients)

/-- The coefficients of one submission, handed to the receiver of that name. -/
structure Delivery where
  receiver : String
  coefficients : Coefficients
deriving DecidableEq

structure Response where
  form : Form
  reply : Reply
  log : List LogRecord
  deliveries : List Delivery

-- ---------------------------------------------------------------------------
-- Log and deliveries
-- ---------------------------------------------------------------------------

/-- The warnings of the new fields come first, then the new degree. -/
def acceptanceLog (degree : Degree) : List LogRecord :=
  (degree.exponents.flatMap fun e => (Field.ofName ⟨e⟩).warnings) ++
    [⟨.debug, "regenerated term fields",
      [("degree", degree.text), ("fields", toString degree.termCount)]⟩]

def refusalLog (form : Form) (refusal : DegreeRefusal) : List LogRecord :=
  [⟨.warning, s!"degree rejected: {refusal.message}", [("input", form.degreeText)]⟩]

/-- Submitting a form that shows nothing is not logged. -/
def submissionLog (form : Form) (result : Except SubmissionError Coefficients) :
    List LogRecord :=
  match form.degree, result with
  | none, _ => []
  | some degree, .ok _ => [⟨.debug, "coefficients submitted", [("degree", degree.text)]⟩]
  | some _, .error e => [⟨.error, s!"submission aborted: {e.message}", []⟩]

/-- Only coefficients are delivered, and only where there is a receiver. -/
def deliveries (form : Form) (result : Except SubmissionError Coefficients) : List Delivery :=
  match form.receiver, result with
  | some receiver, .ok coefficients => [⟨receiver, coefficients⟩]
  | _, _ => []

-- ---------------------------------------------------------------------------
-- Steps and runs
-- ---------------------------------------------------------------------------

def step (form : Form) : Action → Response
  | .typeDegree text => ⟨form.withDegreeText text, .done, [], []⟩
  | .go =>
    match form.checkDegree with
    | .ok degree => ⟨form.acceptDegree degree, .degree (.ok degree), acceptanceLog degree, []⟩
    | .error refusal =>
      ⟨form.refuseDegree, .degree (.error refusal), form.refusalLog refusal, []⟩
  | .enter name entry =>
    match form.enter name entry with
    | .ok after => ⟨after, .entered (.ok ()), [], []⟩
    | .error e => ⟨form, .entered (.error e), [], []⟩
  | .submit =>
    let result := form.submit
    ⟨form, .submitted result, form.submissionLog result, form.deliveries result⟩
  | .dismissBanner => ⟨form.dismissBanner, .done, [], []⟩
  | .register receiver => ⟨form.withReceiver (some receiver), .done, [], []⟩
  | .unregister => ⟨form.withReceiver none, .done, [], []⟩

/-- The responses to a list of actions, taken in turn. -/
def run (form : Form) : List Action → List Response
  | [] => []
  | action :: rest => form.step action :: (form.step action).form.run rest

/-- The form after a list of actions. -/
def after (form : Form) (actions : List Action) : Form :=
  actions.foldl (fun form action => (form.step action).form) form

@[simp] theorem after_nil (form : Form) : form.after [] = form := rfl

@[simp] theorem after_cons (form : Form) (action : Action) (rest : List Action) :
    form.after (action :: rest) = (form.step action).form.after rest := rfl

theorem after_append (form : Form) (first second : List Action) :
    form.after (first ++ second) = (form.after first).after second :=
  List.foldl_append

end CoefficientForm.Form
