-- SUMMARY: Classes of characters as ranges of code points.

/-!
# Ranges of characters

A class of characters is a list of ranges of code points, ascending and apart. The classes here are
those of Unicode 17.
-/

namespace CoefficientForm.Text

/-- Whether `c` lies in one of the ranges, each given by its first and its last code point. -/
def inRanges (ranges : List (Nat × Nat)) (c : Char) : Bool :=
  ranges.any fun (first, last) => first ≤ c.toNat && c.toNat ≤ last

end CoefficientForm.Text
