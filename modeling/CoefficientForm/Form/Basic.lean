-- SUMMARY: The form: a degree box, one field per exponent, a banner and a receiver.
import CoefficientForm.Form.Settings
import CoefficientForm.Form.Slots

/-!
# The form

The user types a degree and presses go. An accepted degree replaces the fields by one for each
exponent, the highest first. A refused one raises the banner and, unless the settings keep them,
takes the fields away. The user then fills in the fields and submits. Whoever is registered as
the receiver gets the coefficients of each submission that goes through.
-/

namespace CoefficientForm

structure Form where
  settings : Settings
  degreeText : String
  /-- The degree for which fields are shown. -/
  degree : Option Degree
  banner : Option String
  /-- The names of the fields in the order in which they are shown. -/
  slots : List FieldName
  /-- At index `e` stands the field of the name `x^e`. -/
  fields : Array Field
  receiver : Option String
deriving DecidableEq

/-- A name for which no field is shown. -/
structure UnknownField where
  name : FieldName
deriving DecidableEq

def UnknownField.message (e : UnknownField) : String :=
  s!"no field {e.name.text} is shown"

namespace Form

/-- A form that shows nothing yet. -/
def empty (settings : Settings) : Form :=
  ⟨settings, "", none, none, [], #[], none⟩

def field? (form : Form) (name : FieldName) : Option Field :=
  form.fields[name.exponent.toNat]?

/-- The fields in the order in which they are shown. -/
def shownFields (form : Form) : List Field :=
  form.slots.filterMap form.field?

-- ---------------------------------------------------------------------------
-- The degree
-- ---------------------------------------------------------------------------

def withDegreeText (form : Form) (degreeText : String) : Form :=
  { form with degreeText }

def checkDegree (form : Form) : Except DegreeRefusal Degree :=
  Degree.ofText form.settings.bounds form.degreeText

/-- The entry that a new field of that name starts with. -/
def initialEntry (form : Form) (name : FieldName) : String :=
  if form.settings.keepEntries then (form.field? name).elim "" Field.entry else ""

def newField (form : Form) (name : FieldName) : Field :=
  (Field.ofName name).withEntry (form.initialEntry name)

/-- Show the fields for a degree that was accepted. -/
def acceptDegree (form : Form) (degree : Degree) : Form :=
  { form with
    degree := some degree
    banner := none
    slots := degree.exponents.map FieldName.mk
    fields := Array.ofFn fun e : Fin degree.termCount => form.newField ⟨UInt32.ofNat e⟩ }

def hideFields (form : Form) : Form :=
  { form with degree := none, slots := [], fields := #[] }

/-- Raise the banner for a degree that was refused. -/
def refuseDegree (form : Form) : Form :=
  let kept := if form.settings.keepFields then form else form.hideFields
  { kept with banner := some form.settings.banner }

def dismissBanner (form : Form) : Form :=
  { form with banner := none }

-- ---------------------------------------------------------------------------
-- Entries and submission
-- ---------------------------------------------------------------------------

/-- Replace the entry of a field that is shown. -/
def enter (form : Form) (name : FieldName) (entry : String) : Except UnknownField Form :=
  match form.field? name with
  | none => .error ⟨name⟩
  | some field =>
    .ok { form with
      fields := form.fields.setIfInBounds name.exponent.toNat (field.withEntry entry) }

/-- Replace entries in turn, up to the first name for which no field is shown. -/
def enterAll (form : Form) : List (FieldName × String) → Except UnknownField Form
  | [] => .ok form
  | (name, entry) :: rest =>
    match form.enter name entry with
    | .ok after => after.enterAll rest
    | .error e => .error e

def withReceiver (form : Form) (receiver : Option String) : Form :=
  { form with receiver }

/-- The coefficients entered. Nothing in the form changes when it is submitted. -/
def submit (form : Form) : Except SubmissionError Coefficients :=
  match form.degree with
  | none => .error .nothingShown
  | some degree => Coefficients.ofSlots degree form.slots form.field?

end Form

end CoefficientForm
