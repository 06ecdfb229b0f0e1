-- SUMMARY: The one-line summary of a form.
import CoefficientForm.Form.Basic
import CoefficientForm.Text.Quoted

/-!
# Summary of a form

The state of a form on one line, for whoever looks into it from outside. What the fields hold is
left out, which the two dots at the end say.
-/

namespace CoefficientForm

/-- A text that may be absent. -/
def summarizeOption : Option String → String
  | some text => s!"Some({text})"
  | none => "None"

def Settings.summary (settings : Settings) : String :=
  "CollectorConfig \x7b " ++
    s!"min_degree: {settings.bounds.min.toNat}, " ++
    s!"max_degree: {settings.bounds.max.toNat}, " ++
    s!"keep_fields_on_error: {settings.keepFields}, " ++
    s!"carry_over_entries: {settings.keepEntries} \x7d"

def Form.summary (form : Form) : String :=
  let degree := summarizeOption (form.degree.map fun degree => s!"Degree({degree.text})")
  let banner := summarizeOption (form.banner.map Text.quoted)
  let slots := ", ".intercalate (form.slots.map fun name => s!"FieldId({name.exponent.toNat})")
  "TermCollector \x7b " ++
    s!"config: {form.settings.summary}, " ++
    s!"degree_input: {Text.quoted form.degreeText}, " ++
    s!"degree: {degree}, " ++
    s!"error: {banner}, " ++
    s!"slots: [{slots}], " ++
    s!"has_on_submit: {form.receiver.isSome}, .. \x7d"

end CoefficientForm
