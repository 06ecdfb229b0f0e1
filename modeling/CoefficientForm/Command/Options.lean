-- SUMMARY: The options on a command line.

/-!
# Options

An option is given by its name behind two hyphens. One that takes a value has it behind an equals
sign or as the next argument; an argument that looks like an option itself is taken for the value
only where the option allows it. A bare double hyphen ends the options, and nothing may follow
it.
-/

namespace CoefficientForm.Command

inductive OptionKind where
  /-- Given or not. -/
  | flag
  /-- With a value. Where `anyNext` holds the next argument is the value whatever it is. -/
  | value (anyNext : Bool)
deriving DecidableEq

structure OptionSpec where
  name : String
  kind : OptionKind
  repeats : Bool
deriving DecidableEq

/-- An option as given, with its value unless it is a flag. -/
structure GivenOption where
  name : String
  value : Option String
deriving DecidableEq

/-- A single hyphen is an ordinary value. -/
def looksLikeOption : List Char → Bool
  | ['-'] => false
  | '-' :: _ => true
  | _ => false

/-- The name of an option, and the value attached to it by the first equals sign. -/
def splitAttached (body : List Char) : String × Option String :=
  (String.ofList (body.takeWhile (· ≠ '=')),
    match body.dropWhile (· ≠ '=') with
    | _ :: value => some (String.ofList value)
    | [] => none)

/-- The options given, in order. None when an argument is no option of `specs`, or an option
lacks its value or has one that it does not take. -/
def readOptions (specs : List OptionSpec) : List (List Char) → Option (List GivenOption)
  | [] => some []
  | ['-', '-'] :: rest => if rest.isEmpty then some [] else none
  | ('-' :: '-' :: body) :: rest =>
    let (name, attached) := splitAttached body
    match specs.find? (·.name == name) with
    | none => none
    | some spec =>
      match spec.kind, attached, rest with
      | .flag, none, rest => (readOptions specs rest).map (⟨name, none⟩ :: ·)
      | .flag, some _, _ => none
      | .value _, some value, rest => (readOptions specs rest).map (⟨name, some value⟩ :: ·)
      | .value _, none, [] => none
      | .value anyNext, none, next :: rest =>
        if looksLikeOption next && !anyNext then none
        else (readOptions specs rest).map (⟨name, some (String.ofList next)⟩ :: ·)
  | _ :: _ => none

/-- Whether no option is given twice that must not be. -/
def respectsRepeats (specs : List OptionSpec) (given : List GivenOption) : Bool :=
  specs.all fun spec => spec.repeats || (given.filter (·.name == spec.name)).length ≤ 1

/-- The options that a whole list of arguments gives. -/
def optionsOf? (specs : List OptionSpec) (args : List String) : Option (List GivenOption) :=
  (readOptions specs (args.map String.toList)).filter (respectsRepeats specs)

-- ---------------------------------------------------------------------------
-- Looking up what was given
-- ---------------------------------------------------------------------------

def isGiven (given : List GivenOption) (name : String) : Bool :=
  given.any (·.name == name)

/-- The values given for an option, in order. -/
def valuesOf (given : List GivenOption) (name : String) : List String :=
  given.filterMap fun option => if option.name == name then option.value else none

def valueOf? (given : List GivenOption) (name : String) : Option String :=
  (valuesOf given name).head?

end CoefficientForm.Command
