-- SUMMARY: The commands, and how a list of arguments gives one.
import CoefficientForm.Binary64.Text
import CoefficientForm.Command.Options
import CoefficientForm.Text.Natural

/-!
# Commands

There is a command to fill in and submit a form, one to show the label for an exponent, and one
to show the outcome of factoring. The first argument names the command and the others are its
options.
-/

namespace CoefficientForm

/-- What to type into a form, and what to print of its coefficients. -/
structure CollectOptions where
  degree : String
  /-- The entries, with commas between them, for the highest exponent first. -/
  values : String
  legacy : Bool
  min : Option UInt32
  max : Option UInt32
  query : Bool
  check : Bool
deriving DecidableEq

/-- A report as the arguments give it. -/
structure OutcomeOptions where
  result : String
  expression : Option String
  intercepts : List String
deriving DecidableEq

inductive Command where
  | collect (options : CollectOptions)
  | label (exponent : Binary64)
  | outcome (options : OutcomeOptions)
deriving DecidableEq

namespace Command

/-- A bound of 32 bits. A minus may stand before a zero. -/
def bound? (s : String) : Option UInt32 :=
  match s.toList with
  | '-' :: digits => (Text.ofDigits? digits).filter (· == 0)
  | cs => Text.ofNatural? cs

/-- A bound that need not be given. What is given must be one. -/
def boundOf? (given : List GivenOption) (name : String) : Option (Option UInt32) :=
  match valueOf? given name with
  | none => some none
  | some s => (bound? s).map some

def collectSpecs : List OptionSpec :=
  [⟨"degree", .value true, false⟩, ⟨"values", .value true, false⟩, ⟨"legacy", .flag, false⟩,
   ⟨"min-degree", .value false, false⟩, ⟨"max-degree", .value false, false⟩,
   ⟨"query", .flag, false⟩, ⟨"check", .flag, false⟩]

def labelSpecs : List OptionSpec :=
  [⟨"exponent", .value true, false⟩]

def outcomeSpecs : List OptionSpec :=
  [⟨"result", .value false, false⟩, ⟨"expression", .value false, false⟩,
   ⟨"intercept", .value true, true⟩]

def collectOf? (given : List GivenOption) : Option CollectOptions := do
  return {
    degree := ← valueOf? given "degree"
    values := (valueOf? given "values").getD ""
    legacy := isGiven given "legacy"
    min := ← boundOf? given "min-degree"
    max := ← boundOf? given "max-degree"
    query := isGiven given "query"
    check := isGiven given "check" }

def outcomeOf? (given : List GivenOption) : Option OutcomeOptions := do
  return {
    result := ← valueOf? given "result"
    expression := valueOf? given "expression"
    intercepts := valuesOf given "intercept" }

/-- The command that the arguments give, none when they are misused. -/
def ofArguments? : List String → Option Command
  | "collect" :: args => do return .collect (← collectOf? (← optionsOf? collectSpecs args))
  | "label" :: args => do
    return .label (← Binary64.ofText? (← valueOf? (← optionsOf? labelSpecs args) "exponent"))
  | "outcome" :: args => do return .outcome (← outcomeOf? (← optionsOf? outcomeSpecs args))
  | _ => none

end Command

end CoefficientForm
