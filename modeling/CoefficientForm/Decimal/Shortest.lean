-- SUMMARY: The shortest decimal that reads back as a given double.
import CoefficientForm.Decimal.Basic

/-!
# Shortest decimals

A double is written with the fewest digits that read back as it. The multiples of a power of ten
form a grid, and only the two grid points next to the value can be the nearest to read back. The
search goes from a grid too wide to hit downwards, and the first grid with a hit wins.
-/

namespace CoefficientForm.Decimal

/-- The decimal that a finite double is exactly. -/
def exact (x : Binary64) : Decimal :=
  ⟨x.negative, x.units * Nat.pow 5 1074, -1074⟩

/-- The magnitude of `x` counted in steps of `10 ^ power`, as a quotient. -/
def inSteps (x : Binary64) (power : Int) : Nat × Nat :=
  if 0 ≤ power then (x.units, tenTo power.toNat * Binary64.one)
  else (x.units * tenTo (-power).toNat, Binary64.one)

/-- Of the two multiples of `10 ^ power` next to `x`, the one that reads back as `x`. When both
do it is the nearer, and of two equally near the one away from zero. -/
def onGrid? (x : Binary64) (power : Int) : Option Decimal :=
  let (num, den) := inSteps x power
  let below : Decimal := ⟨x.negative, num / den, power⟩
  let above : Decimal := ⟨x.negative, num / den + 1, power⟩
  match decide (below.toBinary64 = x), decide (above.toBinary64 = x) with
  | true, true => some (if 2 * (num % den) < den then below else above)
  | true, false => some below
  | false, true => some above
  | false, false => none

/-- A hit reads back. -/
theorem toBinary64_of_onGrid? {x : Binary64} {power : Int} {d : Decimal}
    (h : onGrid? x power = some d) : d.toBinary64 = x := by
  simp only [onGrid?] at h
  split at h
  · split at h <;> simp_all
  all_goals simp_all

/-- The first hit on the grids of `10 ^ power` and the `tries - 1` powers below it. -/
def search (x : Binary64) : Nat → Int → Decimal
  | 0, _ => exact x
  | tries + 1, power => (onGrid? x power).getD (search x tries (power - 1))

/-- A power of ten above the magnitude of `x`, by the decimal logarithm of two. -/
def topPower (x : Binary64) : Int :=
  ((Nat.log2 x.units : Int) - 1073) * 30103 / 100000 + 1

/-- The shortest decimal for a finite double. Seventeen digits tell any two doubles apart, so the
twenty grids below `topPower` hold a hit. -/
def shortest (x : Binary64) : Decimal :=
  if x.rank = 0 then ⟨x.negative, 0, 0⟩ else search x 20 (topPower x)

/-- As `shortest`, but of two equally near decimals the one with an even coefficient. -/
def shortestEven (x : Binary64) : Decimal :=
  let d := shortest x
  let (num, den) := inSteps x d.exponent
  let below : Decimal := ⟨x.negative, num / den, d.exponent⟩
  if 2 * (num % den) = den ∧ below.coefficient % 2 = 0 ∧ below.toBinary64 = x then below else d

end CoefficientForm.Decimal
