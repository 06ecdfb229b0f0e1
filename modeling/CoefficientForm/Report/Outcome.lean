-- SUMMARY: How an attempt to factor a polynomial ended.

/-!
# Outcomes

The factoring service reports one of five outcomes by its tag. Two of them are failures, which
come without a factored form.
-/

namespace CoefficientForm

inductive Outcome where
  /-- Factored by grouping or by rational roots. -/
  | full
  /-- Factored with the quadratic formula. -/
  | quadratic
  /-- Some factors were found, and the rest could not be factored. -/
  | partly
  | notFactored
  /-- The service failed. -/
  | failed
deriving DecidableEq

namespace Outcome

/-- Every outcome, in the order in which they are listed. -/
def all : List Outcome := [.full, .quadratic, .partly, .notFactored, .failed]

def tag : Outcome → String
  | .full => "full"
  | .quadratic => "quadratic"
  | .partly => "partial"
  | .notFactored => "not"
  | .failed => "error"

def ofTag? (tag : String) : Option Outcome :=
  all.find? (·.tag == tag)

theorem ofTag?_tag (outcome : Outcome) : ofTag? outcome.tag = some outcome := by
  cases outcome <;> rfl

/-- The sentence above the result. -/
def sentence : Outcome → String
  | .full => "The polynomial was fully factored."
  | .quadratic => "The polynomial was fully factored using the quadratic formula."
  | .partly => "The polynomial was partially factored."
  | .notFactored => "The polynomial could not be factored."
  | .failed => "An error occurred and the polynomial could not be factored."

def isFailure : Outcome → Bool
  | .notFactored | .failed => true
  | .full | .quadratic | .partly => false

end Outcome

end CoefficientForm
