-- SUMMARY: A field: an exponent with its label, and the text entered for its coefficient.
import CoefficientForm.Exponent.Shown
import CoefficientForm.Field.Name
import CoefficientForm.Log

/-!
# Fields

A field takes the coefficient of one term. It keeps the exponent that it was given, the exponent
that its label shows, and whatever text was entered. What the label shows is worked out when the
exponent is given, and again only when other bits are given; each time the corrections are
logged.
-/

namespace CoefficientForm

structure Field where
  name : Option FieldName
  exponent : Binary64
  shown : Exponent.Shown
  entry : String
deriving DecidableEq

namespace Field

/-- A blank field without a name, for any exponent. -/
def ofExponent (exponent : Binary64) : Field :=
  ⟨none, exponent, Exponent.shown exponent, ""⟩

/-- The blank field of a name. -/
def ofName (name : FieldName) : Field :=
  { ofExponent (.ofUInt32 name.exponent) with name := some name }

/-- The warnings due when the shown exponent has been worked out, one for each correction. -/
def warnings (field : Field) : List LogRecord :=
  field.shown.corrections.map fun correction =>
    ⟨.warning, correction.message, [("exponent", field.exponent.text)]⟩

def withExponent (field : Field) (exponent : Binary64) : Field :=
  if exponent = field.exponent then field
  else { field with exponent, shown := Exponent.shown exponent }

/-- Any text is taken. What it denotes is settled on submission. -/
def withEntry (field : Field) (entry : String) : Field :=
  { field with entry }

/-- The constant term goes without a label. -/
def label (field : Field) : Option Label :=
  if field.shown.value = 0 then none else some ⟨field.shown.value⟩

def isBlank (field : Field) : Bool :=
  Text.trimmed field.entry == ""

-- ---------------------------------------------------------------------------
-- A field on its own
-- ---------------------------------------------------------------------------

inductive Action where
  | giveExponent (exponent : Binary64)
  | enter (entry : String)
deriving DecidableEq

/-- The field after an action, and what the action logs. -/
def step (field : Field) : Action → Field × List LogRecord
  | .giveExponent exponent =>
    let after := field.withExponent exponent
    (after, if exponent = field.exponent then [] else after.warnings)
  | .enter entry => (field.withEntry entry, [])

end Field

end CoefficientForm
