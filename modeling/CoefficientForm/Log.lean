-- SUMMARY: Log records.

/-!
# Log records

What the form reports beside its answers. A record has a level, a message and named values, all
of them as text.
-/

namespace CoefficientForm

inductive Level where
  | debug
  | warning
  | error
deriving DecidableEq

structure LogRecord where
  level : Level
  message : String
  values : List (String × String)
deriving DecidableEq

end CoefficientForm
