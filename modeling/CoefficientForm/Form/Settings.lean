-- SUMMARY: The settings of a form.
import CoefficientForm.Degree

/-!
# Settings

The settings of a form say which degrees it takes, and what becomes of its fields when a degree is
checked again.
-/

namespace CoefficientForm

structure Settings where
  bounds : DegreeBounds
  /-- Whether the fields stay when a later degree is refused. -/
  keepFields : Bool
  /-- Whether entries move on to the fields of the same name when a later degree is accepted. -/
  keepEntries : Bool
deriving DecidableEq

namespace Settings

/-- Degrees from 3 to 1024, and nothing is kept. -/
def standard : Settings := ⟨⟨3, 1024⟩, false, false⟩

/-- As `standard`, but quadratics are accepted too. -/
def legacy : Settings := { standard with bounds := ⟨2, 1024⟩ }

def withMin (settings : Settings) (min : UInt32) : Settings :=
  { settings with bounds := { settings.bounds with min } }

def withMax (settings : Settings) (max : UInt32) : Settings :=
  { settings with bounds := { settings.bounds with max } }

/-- What the banner says when a degree is refused, for whatever reason. -/
def banner (settings : Settings) : String :=
  let min := settings.bounds.min.toNat
  let max := settings.bounds.max.toNat
  s!"Error: the degree must be an integer between {min} and {max}"

end Settings

end CoefficientForm
