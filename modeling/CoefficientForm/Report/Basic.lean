-- SUMMARY: The report of the factoring service.
import CoefficientForm.Report.Outcome

/-!
# Reports

A report is an outcome with or without a factored form. It is valid when the form is there
exactly for the outcomes that are no failures.
-/

namespace CoefficientForm

/-- A factored polynomial as it is displayed. -/
structure FactoredForm where
  expression : String
  intercepts : List String
deriving DecidableEq

structure Report where
  outcome : Outcome
  factored : Option FactoredForm
deriving DecidableEq

inductive ReportError where
  | unknownTag (tag : String)
  | missingFactored (outcome : Outcome)
  | unexpectedFactored (outcome : Outcome)
deriving DecidableEq

def ReportError.message : ReportError → String
  | .unknownTag tag => s!"unknown factoring result '{tag}'"
  | .missingFactored outcome => s!"result '{outcome.tag}' requires a factored expression"
  | .unexpectedFactored outcome => s!"result '{outcome.tag}' must not carry a factored expression"

def Outcome.ofTag (tag : String) : Except ReportError Outcome :=
  match ofTag? tag with
  | some outcome => .ok outcome
  | none => .error (.unknownTag tag)

namespace Report

/-- Whether the factored form is there when it has to be, and only then. -/
def check (report : Report) : Except ReportError Unit :=
  match report.outcome.isFailure, report.factored with
  | true, some _ => .error (.unexpectedFactored report.outcome)
  | false, none => .error (.missingFactored report.outcome)
  | _, _ => .ok ()

/-- The lines for a factored form. -/
def factoredText (factored : FactoredForm) : String :=
  s!"\nExpression: {factored.expression}\nIntercepts: " ++ ", ".intercalate factored.intercepts

/-- What is displayed. A failure shows no factored form, even if there is one. -/
def text (report : Report) : String :=
  let header := s!"RESULT: {report.outcome.sentence}"
  match report.outcome.isFailure, report.factored with
  | false, some factored => header ++ factoredText factored
  | _, _ => header

end Report

end CoefficientForm
