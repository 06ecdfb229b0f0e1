-- SUMMARY: Double-precision numbers as a sign and the rank of a magnitude.

/-!
# Double-precision numbers

A `Binary64` is one of the 2^64 values of the IEEE 754 interchange format, given by its sign and
the rank of its magnitude: the sign bit, and the other 63 bits as a number. The ranks below
`infinityRank` count the finite magnitudes upwards from zero, `infinityRank` is infinity, and the
ranks above it are NaNs. Two values are equal exactly when their bits are.

Every finite magnitude is a multiple of the smallest positive one, 2^-1074. So a finite value is
stated exactly as an integer, the number of these units that it holds.
-/

namespace CoefficientForm

structure Binary64 where
  negative : Bool
  rank : Nat
  rank_lt : rank < 0x8000000000000000
deriving DecidableEq

namespace Binary64

/-- The number of magnitudes from one power of two up to the next, 2^52. -/
abbrev binadeSize : Nat := 0x10000000000000

abbrev infinityRank : Nat := 0x7FF0000000000000

/-- How many units of 2^-1074 make one. -/
def one : Nat := 1 <<< 1074

/-- The magnitude of a rank in units. The first two binades are spaced by one unit, and each
later one by twice the spacing before it. -/
def unitsOfRank (rank : Nat) : Nat :=
  if rank < binadeSize then rank
  else (binadeSize + rank % binadeSize) <<< (rank / binadeSize - 1)

def units (x : Binary64) : Nat :=
  unitsOfRank x.rank

/-- The value of a finite number in units, with its sign. -/
def scaled (x : Binary64) : Int :=
  if x.negative then -(x.units : Int) else x.units

-- ---------------------------------------------------------------------------
-- Kinds of value
-- ---------------------------------------------------------------------------

def isNaN (x : Binary64) : Bool := infinityRank < x.rank

def isInfinite (x : Binary64) : Bool := x.rank == infinityRank

def isFinite (x : Binary64) : Bool := x.rank < infinityRank

/-- Whether a finite number has no fractional part. -/
def isIntegral (x : Binary64) : Bool := x.units % one == 0

-- ---------------------------------------------------------------------------
-- Some values
-- ---------------------------------------------------------------------------

def zero (negative : Bool) : Binary64 := ⟨negative, 0, by decide⟩

def infinity (negative : Bool) : Binary64 := ⟨negative, infinityRank, by decide⟩

/-- The quiet NaN with no payload. -/
def nan (negative : Bool) : Binary64 := ⟨negative, 0x7FF8000000000000, by decide⟩

instance : Inhabited Binary64 := ⟨zero false⟩

-- ---------------------------------------------------------------------------
-- Order
-- ---------------------------------------------------------------------------

/-- The rank, counted downwards from zero for negative values. Both zeros are 0. -/
def signedRank (x : Binary64) : Int :=
  if x.negative then -(x.rank : Int) else x.rank

/-- `x < y` as numbers. NaN is neither below nor above anything. -/
def less (x y : Binary64) : Bool :=
  !x.isNaN && !y.isNaN && decide (x.signedRank < y.signedRank)

/-- `x = y` as numbers: the two zeros are equal, and NaN equals nothing. -/
def sameNumber (x y : Binary64) : Bool :=
  !x.isNaN && !y.isNaN && x.signedRank == y.signedRank

end Binary64

end CoefficientForm
