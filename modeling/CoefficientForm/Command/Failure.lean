-- SUMMARY: Why a command failed, from the outside in.

/-!
# Failures

A failed command says what went wrong and what caused it, each cause beneath the one it led to.
-/

namespace CoefficientForm.Command

structure Failure where
  outermost : String
  causes : List String
deriving DecidableEq

namespace Failure

/-- A text with `margin` in front of every line but the first. -/
def indentLines (margin : String) (s : String) : List Char :=
  s.toList.flatMap fun c => if c = '\n' then '\n' :: margin.toList else [c]

/-- A cause on its own. -/
def soleCause (cause : String) : String :=
  "    " ++ String.ofList (indentLines "    " cause)

/-- One of several causes, with its number. The numbers line up at their right end. -/
def numberedCause (cause : String) (number : Nat) : String :=
  let label := toString number
  let margin := String.ofList (List.replicate (5 - label.length) ' ')
  s!"{margin}{label}: " ++ String.ofList (indentLines "       " cause)

def causesText : List String → String
  | [] => ""
  | [cause] => s!"\n\nCaused by:\n{soleCause cause}"
  | causes =>
    "\n\nCaused by:" ++
      String.join (causes.zipIdx.map fun (cause, number) => s!"\n{numberedCause cause number}")

def text (failure : Failure) : String :=
  s!"Error: {failure.outermost}{causesText failure.causes}\n"

end Failure

end CoefficientForm.Command
