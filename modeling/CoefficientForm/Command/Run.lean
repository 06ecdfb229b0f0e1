-- SUMMARY: What each command prints, logs and reports, and its exit code.
import CoefficientForm.Command.Collect
import CoefficientForm.Report.Basic

/-!
# Running a command

A command either succeeds and prints to standard output, or fails and reports why. What is logged
and the report both go to standard error. How a record is written there, and from which level on,
is up to the environment: unless it says otherwise warnings and errors are, each with the time. So
an output keeps the records apart from the report.
-/

namespace CoefficientForm

/-- What a finished command leaves behind. Standard error has the log, as far as it is written, and
then the report. -/
structure Output where
  exitCode : UInt32
  stdout : String
  log : List LogRecord
  report : String
deriving DecidableEq

namespace OutcomeOptions

/-- The report that the options make. Without an expression there is no factored form. -/
def report (options : OutcomeOptions) (outcome : Outcome) : Report :=
  ⟨outcome, options.expression.map fun expression => ⟨expression, options.intercepts⟩⟩

def run (options : OutcomeOptions) : Except Command.Failure (List String) :=
  match Outcome.ofTag options.result with
  | .error e => .error ⟨e.message, []⟩
  | .ok outcome =>
    let report := options.report outcome
    match report.check with
    | .error e => .error ⟨"invalid factoring result", [e.message]⟩
    | .ok () => .ok [report.text]

end OutcomeOptions

namespace Command

/-- The corrections to an exponent and the label that it ends up with. -/
def labelLines (exponent : Binary64) : List String :=
  let field := Field.ofExponent exponent
  let shown := field.label.elim "(none: constant term)" Label.text
  field.shown.corrections.map (fun correction => s!"warning\t{correction.message}") ++
    [s!"label\t{shown}"]

def lines : Command → Except Failure (List String)
  | .collect options => options.run
  | .label exponent => .ok (labelLines exponent)
  | .outcome options => options.run

/-- What is logged while a command runs. Only forms and fields log. -/
def log : Command → List LogRecord
  | .collect options => options.log
  | .label exponent => (Field.ofExponent exponent).warnings
  | .outcome _ => []

def run (command : Command) : Output :=
  match command.lines with
  | .ok lines => ⟨0, String.join (lines.map fun line => s!"{line}\n"), command.log, ""⟩
  | .error failure => ⟨1, "", command.log, failure.text⟩

/-- The exit code for arguments that give no command. -/
def misuseCode : UInt32 := 2

end Command

end CoefficientForm
