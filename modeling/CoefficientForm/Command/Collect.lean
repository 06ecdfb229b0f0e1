-- SUMMARY: The command that fills in and submits a form.
import CoefficientForm.Command.Basic
import CoefficientForm.Command.Failure
import CoefficientForm.Form.Step

/-!
# Collecting coefficients

The command types a degree into a new form, fills the fields from the highest exponent down, and
submits. A refused degree is reported before too many entries, and these before an entry that
cannot be read.
-/

namespace CoefficientForm.CollectOptions

open Command (Failure)

/-- A bound that is given replaces the one of the settings. -/
def settings (options : CollectOptions) : Settings :=
  let base := if options.legacy then Settings.legacy else Settings.standard
  let withMin := options.min.elim base base.withMin
  options.max.elim withMin withMin.withMax

/-- The entries given. There are none in an empty text. -/
def entries (options : CollectOptions) : List String :=
  if options.values = "" then []
  else (options.values.toList.splitOn ',').map String.ofList

/-- How a new form answers to the degree that is typed into it. -/
def goResponse (options : CollectOptions) : Form.Response :=
  let typed := ((Form.empty options.settings).step (.typeDegree options.degree)).form
  typed.step .go

/-- The form with the degree accepted. Where it is refused the banner is reported, or a text in its
place if the form has none. -/
def openedForm (options : CollectOptions) : Except Failure Form :=
  let response := options.goResponse
  match response.reply with
  | .degree (.error refusal) =>
    .error ⟨response.form.banner.getD "Error: invalid degree", [refusal.message]⟩
  | _ => .ok response.form

/-- The form with the entries typed into its fields, in the order in which they are shown. -/
def filledForm (options : CollectOptions) (form : Form) : Except Failure Form :=
  let entries := options.entries
  if form.slots.length < entries.length then
    .error ⟨s!"{entries.length} values given but only {form.slots.length} fields are shown", []⟩
  else
    match form.enterAll (form.slots.zip entries) with
    | .ok filled => .ok filled
    | .error e => .error ⟨s!"failed to fill field {e.name.text}", [e.message]⟩

def submission (form : Form) : Except Failure Coefficients :=
  match form.submit with
  | .ok coefficients => .ok coefficients
  | .error e => .error ⟨"submission failed", e.causes⟩

-- ---------------------------------------------------------------------------
-- What is printed
-- ---------------------------------------------------------------------------

/-- All coefficients on one line, the constant term first. -/
def listLine (coefficients : Coefficients) : String :=
  let all := ", ".intercalate (coefficients.values.toList.map Binary64.text)
  s!"coefficients\t[{all}]"

/-- A line for each coefficient, the leading term first. -/
def termLines (coefficients : Coefficients) : List String :=
  coefficients.descending.map fun (exponent, value) => s!"x^{exponent.toNat}\t{value.text}"

def checkLine (coefficients : Coefficients) : String :=
  match coefficients.factorable with
  | .ok () => "check\tok"
  | .error e => s!"check\t{e.message}"

/-- A check that finds something wrong is printed like one that does not. -/
def lines (options : CollectOptions) (coefficients : Coefficients) : List String :=
  listLine coefficients :: termLines coefficients ++
    (if options.query then [s!"query\t{coefficients.query}"] else []) ++
    (if options.check then [checkLine coefficients] else [])

def run (options : CollectOptions) : Except Failure (List String) := do
  let form ← options.openedForm
  let filled ← options.filledForm form
  let coefficients ← submission filled
  return options.lines coefficients

/-- What the form logs on the way: at the degree, and at the submission if it comes to that. -/
def log (options : CollectOptions) : List LogRecord :=
  options.goResponse.log ++
    match options.openedForm.bind options.filledForm with
    | .ok filled => (filled.step .submit).log
    | .error _ => []

end CoefficientForm.CollectOptions
