-- SUMMARY: Reports as JSON.
import CoefficientForm.Json.Reader
import CoefficientForm.Json.Printer
import CoefficientForm.Report.Basic

/-!
# Reports as JSON

A report is an object with the members `result` and `factored`, and a factored form one with
`expression` and `intercepts`. What is absent or empty is left out. Members of other names are
skipped when a report is read, but a known name must not be given twice. Either object may also
be written as an array of its members' values in the same order.
-/

namespace CoefficientForm

namespace Json

/-- The value of the member `name`, `some none` if there is none. A name given twice is
refused. -/
def member? (name : String) (members : List (Option String × Json)) : Option (Option Json) :=
  match members.filter (·.1 == some name) with
  | [] => some none
  | [(_, value)] => some (some value)
  | _ => none

/-- Whether every name is a text. -/
def hasTextNames (members : List (Option String × Json)) : Bool :=
  members.all (·.1.isSome)

def text? : Json → Option String
  | .string text => text
  | _ => none

def texts? : Json → Option (List String)
  | .array items => items.mapM text?
  | _ => none

end Json

/-- A tag is a string, or an object with the tag as its only name and null as its value. -/
def Outcome.ofJson? : Json → Option Outcome
  | .string (some tag) => ofTag? tag
  | .object [(some tag, .null)] => ofTag? tag
  | _ => none

namespace FactoredForm

def toJson (factored : FactoredForm) : Json :=
  let intercepts : List (Option String × Json) :=
    if factored.intercepts = [] then []
    else [(some "intercepts", .array (factored.intercepts.map .ofString))]
  .object ((some "expression", .ofString factored.expression) :: intercepts)

/-- A factored form from the values of its members. The intercepts may be left out. -/
def ofValues? (expression intercepts : Option Json) : Option FactoredForm := do
  let expression ← (← expression).text?
  match intercepts with
  | none => return ⟨expression, []⟩
  | some intercepts => return ⟨expression, ← intercepts.texts?⟩

def ofJson? : Json → Option FactoredForm
  | .object members => do
    if Json.hasTextNames members then
      ofValues? (← Json.member? "expression" members) (← Json.member? "intercepts" members)
    else none
  | .array [expression] => ofValues? (some expression) none
  | .array [expression, intercepts] => ofValues? (some expression) (some intercepts)
  | _ => none

end FactoredForm

namespace Report

def toJson (report : Report) : Json :=
  let factored : List (Option String × Json) :=
    match report.factored with
    | some factored => [(some "factored", factored.toJson)]
    | none => []
  .object ((some "result", .ofString report.outcome.tag) :: factored)

/-- A report from the values of its members. A factored form left out may also be null. -/
def ofValues? (result factored : Option Json) : Option Report := do
  let outcome ← Outcome.ofJson? (← result)
  match factored with
  | none | some .null => return ⟨outcome, none⟩
  | some factored => return ⟨outcome, some (← FactoredForm.ofJson? factored)⟩

def ofJson? : Json → Option Report
  | .object members => do
    if Json.hasTextNames members then
      ofValues? (← Json.member? "result" members) (← Json.member? "factored" members)
    else none
  | .array [result] => ofValues? (some result) none
  | .array [result, factored] => ofValues? (some result) (some factored)
  | _ => none

def ofJsonText? (s : String) : Option Report :=
  (Json.ofText? s).bind ofJson?

end Report

end CoefficientForm
