-- SUMMARY: The coefficient that an entered text denotes.
import CoefficientForm.Binary64.Text
import CoefficientForm.Text.Blank

/-!
# Entries

An entry left blank is zero. Any other entry must be a finite number, whatever blanks stand
around it.
-/

namespace CoefficientForm

/-- An entry that is neither blank nor a finite number, without the blanks around it. -/
structure InvalidEntry where
  typed : String
deriving DecidableEq

def InvalidEntry.message (e : InvalidEntry) : String :=
  s!"'{e.typed}' is not a number"

/-- The coefficient that an entry denotes. -/
def coefficientOf (entry : String) : Except InvalidEntry Binary64 :=
  let typed := Text.trimmed entry
  if typed = "" then .ok (.zero false)
  else
    match Binary64.ofText? typed with
    | some value => if value.isFinite then .ok value else .error ⟨typed⟩
    | none => .error ⟨typed⟩

end CoefficientForm
