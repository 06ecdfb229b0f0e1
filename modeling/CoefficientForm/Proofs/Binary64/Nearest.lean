-- SUMMARY: Rounding finds the double nearest to a number, and how far that can be away.
import CoefficientForm.Proofs.Binary64.Value

/-!
# Nearest doubles

Which double is nearest to a magnitude is said without rounding anything: no other is nearer, and of
two equally near the one of even rank is taken. Infinity counts as the first power of two that is
too large for a finite double. There is exactly one such rank, and rounding a quotient finds it. It
is found out at the points halfway to the doubles below and above.
-/

namespace CoefficientForm

/-! ## Rounding a quotient -/

/-- A bound that is met only where `n` is even. -/
def EvenBound (n a b : ℕ) : Prop :=
  a ≤ b ∧ (a = b → n % 2 = 0)

theorem evenBound_of_lt {n a b : ℕ} (h : a < b) : EvenBound n a b :=
  ⟨h.le, fun heq => absurd heq h.ne⟩

theorem evenBound_of_even {n a b : ℕ} (h : a ≤ b) (heven : n % 2 = 0) : EvenBound n a b :=
  ⟨h, fun _ => heven⟩

section RoundHalfEven

variable {num den : ℕ}

/-- A quotient is not below the point halfway to the natural number below the rounded one. -/
theorem roundHalfEven_halfway_below (hden : 0 < den) :
    EvenBound (roundHalfEven num den) (2 * roundHalfEven num den * den) (2 * num + den) := by
  have hsplit := Nat.div_add_mod num den
  have hrest := Nat.mod_lt num hden
  have hscale (w : ℕ) : 2 * w * den = 2 * (den * w) := by ring
  have hnext : den * (num / den + 1) = den * (num / den) + den := Nat.mul_succ _ _
  simp only [roundHalfEven]
  split
  · exact evenBound_of_lt (by rw [hscale]; omega)
  · split
    · exact evenBound_of_lt (by rw [hscale, hnext]; omega)
    · apply evenBound_of_even _ (by omega)
      rcases Nat.mod_two_eq_zero_or_one (num / den) with hmod | hmod <;> rw [hmod, hscale]
      · rw [Nat.add_zero]
        omega
      · rw [hnext]
        omega

/-- A quotient is not above the point halfway to the natural number above the rounded one. -/
theorem roundHalfEven_halfway_above (hden : 0 < den) :
    EvenBound (roundHalfEven num den) (2 * num) ((2 * roundHalfEven num den + 1) * den) := by
  have hsplit := Nat.div_add_mod num den
  have hrest := Nat.mod_lt num hden
  have hscale (w : ℕ) : (2 * w + 1) * den = 2 * (den * w) + den := by ring
  have hnext : den * (num / den + 1) = den * (num / den) + den := Nat.mul_succ _ _
  simp only [roundHalfEven]
  split
  · exact evenBound_of_lt (by rw [hscale]; omega)
  · split
    · exact evenBound_of_lt (by rw [hscale, hnext]; omega)
    · apply evenBound_of_even _ (by omega)
      rcases Nat.mod_two_eq_zero_or_one (num / den) with hmod | hmod <;> rw [hmod, hscale]
      · rw [Nat.add_zero]
        omega
      · rw [hnext]
        omega

theorem one_le_abs_sub_of_ne {m n : ℕ} (h : m ≠ n) : (1 : ℚ) ≤ |(m : ℚ) - n| := by
  exact_mod_cast Int.one_le_abs (sub_ne_zero.2 (Nat.cast_injective.ne h))

/-- A quotient is rounded by at most one half. -/
theorem abs_sub_roundHalfEven_le (hden : 0 < den) :
    |(num / den : ℚ) - roundHalfEven num den| ≤ 1 / 2 := by
  have hpos : (0 : ℚ) < den := Nat.cast_pos.2 hden
  have hbelow : ((2 * roundHalfEven num den * den : ℕ) : ℚ) ≤ (2 * num + den : ℕ) :=
    Nat.cast_le.2 (roundHalfEven_halfway_below hden).1
  have habove : ((2 * num : ℕ) : ℚ) ≤ ((2 * roundHalfEven num den + 1) * den : ℕ) :=
    Nat.cast_le.2 (roundHalfEven_halfway_above hden).1
  push_cast at hbelow habove
  rw [abs_le, neg_le_sub_iff_le_add, sub_le_iff_le_add, ← sub_le_iff_le_add, le_div_iff₀ hpos,
    div_le_iff₀ hpos]
  constructor <;> linarith

/-- Less than one half away from a quotient there is no other natural number. -/
theorem roundHalfEven_eq_of_abs_sub_lt {n : ℕ} (hden : 0 < den)
    (h : |(num / den : ℚ) - n| < 1 / 2) : roundHalfEven num den = n := by
  by_contra hne
  have hapart := one_le_abs_sub_of_ne hne
  have htriangle := abs_sub_le (roundHalfEven num den : ℚ) (num / den) n
  rw [abs_sub_comm _ (num / den : ℚ)] at htriangle
  have hhalf : |(num / den : ℚ) - roundHalfEven num den| ≤ 1 / 2 := abs_sub_roundHalfEven_le hden
  linarith

end RoundHalfEven

namespace Binary64

/-! ## Points halfway between ranks -/

theorem unitsOfRank_le_of_le {rank other : ℕ} (h : rank ≤ other) :
    unitsOfRank rank ≤ unitsOfRank other :=
  unitsOfRank_strictMono.monotone h

/-- Whether a quotient is cut to `significand` steps of `2 ^ shift`, rounded to nearest. -/
structure Cut (num den shift significand : ℕ) : Prop where
  low : shift = 0 ∨ binadeSize ≤ significand
  high : significand ≤ 2 * binadeSize
  whole : shift = 0 ∨ binadeSize * (den * 2 ^ shift) ≤ num
  below : EvenBound significand (2 * significand * (den * 2 ^ shift)) (2 * num + den * 2 ^ shift)
  above : EvenBound significand (2 * num) ((2 * significand + 1) * (den * 2 ^ shift))

theorem binadeSize_mul_le {num den : ℕ} (hpos : 0 < excessBits num den) :
    binadeSize * (den * 2 ^ excessBits num den) ≤ num := by
  have hne : num / den ≠ 0 := by
    intro hzero
    simp [excessBits, hzero] at hpos
  have hsize : binadeSize = 2 ^ 52 := by norm_num [binadeSize]
  calc binadeSize * (den * 2 ^ excessBits num den) = 2 ^ Nat.log2 (num / den) * den := by
        rw [hsize, Nat.mul_left_comm, Nat.mul_comm, ← pow_add]
        congr 2
        unfold excessBits at hpos ⊢
        omega
    _ ≤ num / den * den := Nat.mul_le_mul_right _ (Nat.log2_self_le hne)
    _ ≤ num := Nat.div_mul_le_self num den

theorem exists_cut (num : ℕ) {den : ℕ} (hden : 0 < den) :
    ∃ shift significand, Cut num den shift significand ∧
      nearestRank num den = min (shift * binadeSize + significand) infinityRank := by
  have hstep : den <<< excessBits num den = den * 2 ^ excessBits num den := Nat.shiftLeft_eq _ _
  have hpos : 0 < den * 2 ^ excessBits num den := by positivity
  refine ⟨excessBits num den, roundHalfEven num (den <<< excessBits num den), ?_, rfl⟩
  refine ⟨?_, roundHalfEven_le_two_mul_binadeSize num den, ?_, ?_, ?_⟩
  · exact (Nat.eq_zero_or_pos _).imp_right binadeSize_le_roundHalfEven
  · exact (Nat.eq_zero_or_pos _).imp_right binadeSize_mul_le
  · rw [hstep]
    exact roundHalfEven_halfway_below hpos
  · rw [hstep]
    exact roundHalfEven_halfway_above hpos

section Cut

variable {num den shift significand rank : ℕ}

theorem Cut.unitsOfRank_eq (h : Cut num den shift significand) :
    unitsOfRank (shift * binadeSize + significand) = significand * 2 ^ shift :=
  unitsOfRank_add h.low h.high

theorem Cut.rank_mod_two :
    (shift * binadeSize + significand) % 2 = significand % 2 := by
  simp only [binadeSize]
  omega

/-- The next rank is at least one step of the same width away. -/
theorem Cut.le_unitsOfRank (h : Cut num den shift significand)
    (hrank : shift * binadeSize + significand < rank) :
    (significand + 1) * 2 ^ shift ≤ unitsOfRank rank := by
  refine Nat.le_trans ?_ (unitsOfRank_le_of_le hrank)
  rcases Nat.lt_or_eq_of_le h.high with hlt | rfl
  · rw [Nat.succ_eq_add_one, Nat.add_assoc, unitsOfRank_add (h.low.imp_right Nat.le_succ_of_le) hlt]
  · have hnext : (shift * binadeSize + 2 * binadeSize).succ =
        (shift + 1) * binadeSize + (binadeSize + 1) := by
      simp only [binadeSize]
      omega
    rw [hnext, unitsOfRank_add (.inr (Nat.le_succ _)) (by simp [binadeSize]), pow_succ]
    calc (2 * binadeSize + 1) * 2 ^ shift ≤ (2 * binadeSize + 2) * 2 ^ shift :=
          Nat.mul_le_mul_right _ (Nat.le_succ _)
      _ = (binadeSize + 1) * (2 ^ shift * 2) := by ring

/-- So is the rank before, except below the first significand of a binade. -/
theorem Cut.unitsOfRank_add_le (h : Cut num den shift significand)
    (hrank : rank < shift * binadeSize + significand)
    (hfirst : ¬ (shift ≠ 0 ∧ significand = binadeSize)) :
    unitsOfRank rank + 2 ^ shift ≤ significand * 2 ^ shift := by
  obtain ⟨before, rfl⟩ : ∃ before, significand = before + 1 := by
    refine ⟨significand - 1, ?_⟩
    have hlow := h.low
    simp only [binadeSize] at hlow hrank hfirst
    omega
  have hlow : shift = 0 ∨ binadeSize ≤ before := by
    have hlow := h.low
    simp only [binadeSize] at hlow hfirst ⊢
    omega
  have hhigh : before ≤ 2 * binadeSize := Nat.le_of_succ_le h.high
  calc unitsOfRank rank + 2 ^ shift
      ≤ unitsOfRank (shift * binadeSize + before) + 2 ^ shift :=
        Nat.add_le_add_right (unitsOfRank_le_of_le (Nat.le_of_lt_succ hrank)) _
    _ = (before + 1) * 2 ^ shift := by rw [unitsOfRank_add hlow hhigh, Nat.succ_mul]

theorem Cut.halfway_above (h : Cut num den shift significand)
    (hrank : shift * binadeSize + significand < rank) :
    EvenBound (shift * binadeSize + significand) (2 * num)
      ((unitsOfRank (shift * binadeSize + significand) + unitsOfRank rank) * den) := by
  have hle : (2 * significand + 1) * (den * 2 ^ shift) ≤
      (unitsOfRank (shift * binadeSize + significand) + unitsOfRank rank) * den := by
    calc (2 * significand + 1) * (den * 2 ^ shift)
        = (significand * 2 ^ shift + (significand + 1) * 2 ^ shift) * den := by ring
      _ ≤ (unitsOfRank (shift * binadeSize + significand) + unitsOfRank rank) * den := by
        rw [h.unitsOfRank_eq]
        exact Nat.mul_le_mul_right _ (Nat.add_le_add_left (h.le_unitsOfRank hrank) _)
  refine ⟨h.above.1.trans hle, ?_⟩
  intro heq
  rw [Cut.rank_mod_two]
  exact h.above.2 (h.above.1.antisymm (heq ▸ hle))

/-- Below the first significand of a binade the steps are narrower, but then the quotient is not
below that significand itself. -/
theorem Cut.halfway_below (h : Cut num den shift significand) (hden : 0 < den)
    (hrank : rank < shift * binadeSize + significand) :
    EvenBound (shift * binadeSize + significand)
      ((unitsOfRank rank + unitsOfRank (shift * binadeSize + significand)) * den) (2 * num) := by
  by_cases hfirst : shift ≠ 0 ∧ significand = binadeSize
  · apply evenBound_of_lt
    have hlt := unitsOfRank_strictMono hrank
    have hunits : unitsOfRank (shift * binadeSize + significand) * den ≤ num := by
      rw [h.unitsOfRank_eq, hfirst.2, Nat.mul_assoc, Nat.mul_comm _ den]
      exact h.whole.resolve_left hfirst.1
    calc (unitsOfRank rank + unitsOfRank (shift * binadeSize + significand)) * den
        < 2 * (unitsOfRank (shift * binadeSize + significand) * den) := by
          rw [← Nat.mul_assoc]
          exact Nat.mul_lt_mul_of_pos_right (by omega) hden
      _ ≤ 2 * num := Nat.mul_le_mul_left 2 hunits
  · have hle : (unitsOfRank rank + unitsOfRank (shift * binadeSize + significand)) * den +
        den * 2 ^ shift ≤ 2 * significand * (den * 2 ^ shift) := by
      rw [h.unitsOfRank_eq]
      calc (unitsOfRank rank + significand * 2 ^ shift) * den + den * 2 ^ shift
          = (unitsOfRank rank + 2 ^ shift + significand * 2 ^ shift) * den := by ring
        _ ≤ (significand * 2 ^ shift + significand * 2 ^ shift) * den :=
          Nat.mul_le_mul_right _ (Nat.add_le_add_right (h.unitsOfRank_add_le hrank hfirst) _)
        _ = 2 * significand * (den * 2 ^ shift) := by ring
    refine ⟨?_, ?_⟩
    · have hbound := h.below.1
      omega
    · intro heq
      rw [Cut.rank_mod_two]
      apply h.below.2
      have hbound := h.below.1
      omega

end Cut

section NearestRank

variable {num den rank : ℕ}

theorem nearestRank_halfway_above (hden : 0 < den) (h : nearestRank num den < rank)
    (hrank : rank ≤ infinityRank) :
    EvenBound (nearestRank num den) (2 * num)
      ((unitsOfRank (nearestRank num den) + unitsOfRank rank) * den) := by
  obtain ⟨shift, significand, hcut, hnearest⟩ := exists_cut num hden
  have huncut : nearestRank num den = shift * binadeSize + significand := by omega
  rw [huncut] at h ⊢
  exact hcut.halfway_above h

theorem nearestRank_halfway_below (hden : 0 < den) (h : rank < nearestRank num den) :
    EvenBound (nearestRank num den)
      ((unitsOfRank rank + unitsOfRank (nearestRank num den)) * den) (2 * num) := by
  obtain ⟨shift, significand, hcut, hnearest⟩ := exists_cut num hden
  rcases Nat.le_total (shift * binadeSize + significand) infinityRank with hle | hcutoff
  · rw [Nat.min_eq_left hle] at hnearest
    rw [hnearest] at h ⊢
    exact hcut.halfway_below hden h
  · rw [Nat.min_eq_right hcutoff] at hnearest
    rw [hnearest] at h ⊢
    apply evenBound_of_even _ (by decide)
    calc (unitsOfRank rank + unitsOfRank infinityRank) * den
        ≤ (unitsOfRank rank + unitsOfRank (shift * binadeSize + significand)) * den :=
          Nat.mul_le_mul_right _ (Nat.add_le_add_left (unitsOfRank_le_of_le hcutoff) _)
      _ ≤ 2 * num := (hcut.halfway_below hden (h.trans_le hcutoff)).1

end NearestRank

/-! ## The nearest double -/

/-- The magnitude of a double as an exact number. That of infinity is 2^1024. -/
def magnitude (x : Binary64) : ℚ := x.units / one

/-- Whether a double is the one nearest to a magnitude, whatever its sign. Of two that are equally
near it is the one of even rank, whose last bit is 0. -/
structure IsNearest (x : Binary64) (m : ℚ) : Prop where
  isNaN_eq : x.isNaN = false
  le : ∀ y : Binary64, y.isNaN = false → |x.magnitude - m| ≤ |y.magnitude - m|
  even_of_tie : ∀ y : Binary64, y.isNaN = false → y.rank ≠ x.rank →
    |x.magnitude - m| = |y.magnitude - m| → x.rank % 2 = 0

theorem isNaN_eq_false_iff {x : Binary64} : x.isNaN = false ↔ x.rank ≤ infinityRank := by
  rw [isNaN, decide_eq_false_iff_not, Nat.not_lt]

theorem magnitude_lt_magnitude_iff {x y : Binary64} :
    x.magnitude < y.magnitude ↔ x.rank < y.rank := by
  rw [← units_lt_units_iff, magnitude, magnitude,
    div_lt_div_iff_of_pos_right one_cast_pos, Nat.cast_lt]

theorem magnitude_eq_magnitude_iff {x y : Binary64} :
    x.magnitude = y.magnitude ↔ x.rank = y.rank := by
  have hlt := magnitude_lt_magnitude_iff (x := x) (y := y)
  have hgt := magnitude_lt_magnitude_iff (x := y) (y := x)
  rw [le_antisymm_iff, ← not_lt, ← not_lt, hlt, hgt]
  omega

theorem magnitude_nonneg (x : Binary64) : 0 ≤ x.magnitude := by
  unfold magnitude
  positivity

/-- A magnitude with a sign of its own. -/
def withSign (negative : Bool) (m : ℚ) : ℚ := if negative then -m else m

theorem abs_withSign (negative : Bool) (m : ℚ) : |withSign negative m| = |m| := by
  cases negative
  · rfl
  · exact abs_neg m

theorem toRat_eq_withSign (x : Binary64) : x.toRat = withSign x.negative x.magnitude := by
  cases hs : x.negative <;> simp [toRat, scaled, withSign, magnitude, hs, neg_div]

theorem abs_toRat (x : Binary64) : |x.toRat| = x.magnitude := by
  rw [toRat_eq_withSign, abs_withSign, abs_of_nonneg x.magnitude_nonneg]

theorem magnitude_ofUInt32 (n : UInt32) : (ofUInt32 n).magnitude = n.toNat := by
  rw [← abs_toRat, toRat_ofUInt32, Nat.abs_cast]

section Halfway

variable {a b m : ℚ}

/-- The greater of two numbers is the nearer where the halfway point is exceeded. -/
theorem abs_sub_le_abs_sub_iff_of_lt (h : a < b) : |b - m| ≤ |a - m| ↔ a + b ≤ 2 * m := by
  rw [← sq_le_sq, ← sub_nonneg]
  have hfactor : (a - m) ^ 2 - (b - m) ^ 2 = (b - a) * (2 * m - (a + b)) := by ring
  rw [hfactor, mul_nonneg_iff_of_pos_left (sub_pos.2 h), sub_nonneg]

theorem abs_sub_le_abs_sub_iff_of_gt (h : a < b) : |a - m| ≤ |b - m| ↔ 2 * m ≤ a + b := by
  rw [← sq_le_sq, ← sub_nonneg]
  have hfactor : (b - m) ^ 2 - (a - m) ^ 2 = (b - a) * (a + b - 2 * m) := by ring
  rw [hfactor, mul_nonneg_iff_of_pos_left (sub_pos.2 h), sub_nonneg]

theorem two_mul_eq_of_abs_sub_eq (h : a < b) (heq : |b - m| = |a - m|) : a + b = 2 * m :=
  ((abs_sub_le_abs_sub_iff_of_lt h).1 heq.le).antisymm
    ((abs_sub_le_abs_sub_iff_of_gt h).1 heq.ge)

end Halfway

section IsNearest

variable {x y : Binary64} {m n : ℚ}

theorem IsNearest.add_le (h : x.IsNearest m) (hlt : y.rank < x.rank) :
    y.magnitude + x.magnitude ≤ 2 * m := by
  have hy : y.isNaN = false :=
    isNaN_eq_false_iff.2 (hlt.le.trans (isNaN_eq_false_iff.1 h.isNaN_eq))
  exact (abs_sub_le_abs_sub_iff_of_lt (magnitude_lt_magnitude_iff.2 hlt)).1 (h.le y hy)

theorem IsNearest.le_add (h : x.IsNearest m) (hlt : x.rank < y.rank) (hy : y.isNaN = false) :
    2 * m ≤ x.magnitude + y.magnitude :=
  (abs_sub_le_abs_sub_iff_of_gt (magnitude_lt_magnitude_iff.2 hlt)).1 (h.le y hy)

/-- Two ranks that are equally near have another one between them, or one of them is odd. -/
theorem IsNearest.not_rank_lt (hx : x.IsNearest m) (hy : y.IsNearest m) : ¬ x.rank < y.rank := by
  intro hlt
  have hmagnitude := magnitude_lt_magnitude_iff.2 hlt
  have heq : |x.magnitude - m| = |y.magnitude - m| :=
    (hx.le y hy.isNaN_eq).antisymm (hy.le x hx.isNaN_eq)
  have hxeven := hx.even_of_tie y hy.isNaN_eq hlt.ne' heq
  have hyeven := hy.even_of_tie x hx.isNaN_eq hlt.ne heq.symm
  let between : Binary64 := ⟨x.negative, x.rank + 1, by have := y.rank_lt; omega⟩
  have hbelow : x.rank < between.rank := Nat.lt_succ_self _
  have habove : between.rank < y.rank := by
    show x.rank + 1 < y.rank
    omega
  have hbetween : between.isNaN = false :=
    isNaN_eq_false_iff.2 (habove.le.trans (isNaN_eq_false_iff.1 hy.isNaN_eq))
  have hhalf := two_mul_eq_of_abs_sub_eq hmagnitude heq.symm
  have hnext := hx.le_add hbelow hbetween
  have hgap := magnitude_lt_magnitude_iff.2 habove
  linarith

/-- There is only one nearest rank. -/
theorem IsNearest.rank_eq (hx : x.IsNearest m) (hy : y.IsNearest m) : x.rank = y.rank := by
  have hlt := hx.not_rank_lt hy
  have hgt := hy.not_rank_lt hx
  omega

theorem IsNearest.of_rank_eq (h : x.IsNearest m) (hrank : y.rank = x.rank) : y.IsNearest m := by
  have hmagnitude := magnitude_eq_magnitude_iff.2 hrank
  refine ⟨?_, ?_, ?_⟩
  · rw [isNaN_eq_false_iff, hrank]
    exact isNaN_eq_false_iff.1 h.isNaN_eq
  · rw [hmagnitude]
    exact h.le
  · rw [hmagnitude, hrank]
    exact h.even_of_tie

theorem IsNearest.eq (hx : x.IsNearest m) (hy : y.IsNearest m) (h : x.negative = y.negative) :
    x = y := by
  have hrank := hx.rank_eq hy
  cases x
  cases y
  simp_all

/-- A larger magnitude has no nearest double below. -/
theorem IsNearest.rank_le_rank (hx : x.IsNearest m) (hy : y.IsNearest n) (h : m ≤ n) :
    x.rank ≤ y.rank := by
  by_contra hnot
  have hlt := Nat.not_le.1 hnot
  have hbelow := hx.add_le hlt
  have habove := hy.le_add hlt hx.isNaN_eq
  obtain rfl : m = n := by linarith
  exact hlt.ne' (hx.rank_eq hy)

/-- A double is the nearest one to its own magnitude. -/
theorem isNearest_magnitude (hx : x.isNaN = false) : x.IsNearest x.magnitude := by
  refine ⟨hx, ?_, ?_⟩
  · intro y _
    rw [sub_self, abs_zero]
    exact abs_nonneg _
  · intro y _ hne heq
    rw [sub_self, abs_zero, eq_comm, abs_eq_zero, sub_eq_zero] at heq
    rcases Nat.lt_or_gt_of_ne hne with hlt | hgt
    · exact absurd heq (magnitude_lt_magnitude_iff.2 hlt).ne
    · exact absurd heq (magnitude_lt_magnitude_iff.2 hgt).ne'

theorem IsNearest.magnitude_eq (h : x.IsNearest y.magnitude) (hy : y.isNaN = false) :
    x.magnitude = y.magnitude :=
  magnitude_eq_magnitude_iff.2 (h.rank_eq (isNearest_magnitude hy))

end IsNearest

section Quotient

variable {x y : Binary64} {num den : ℕ}

theorem magnitude_add_le_iff (hden : 0 < den) :
    x.magnitude + y.magnitude ≤ 2 * (num / den / one : ℚ) ↔
      (x.units + y.units) * den ≤ 2 * num := by
  have hpos : (0 : ℚ) < den := Nat.cast_pos.2 hden
  rw [magnitude, magnitude, ← add_div, ← mul_div_assoc, div_le_div_iff_of_pos_right one_cast_pos,
    ← mul_div_assoc, le_div_iff₀ hpos]
  norm_cast

theorem le_magnitude_add_iff (hden : 0 < den) :
    2 * (num / den / one : ℚ) ≤ x.magnitude + y.magnitude ↔
      2 * num ≤ (x.units + y.units) * den := by
  have hpos : (0 : ℚ) < den := Nat.cast_pos.2 hden
  rw [magnitude, magnitude, ← add_div, ← mul_div_assoc, div_le_div_iff_of_pos_right one_cast_pos,
    ← mul_div_assoc, div_le_iff₀ hpos]
  norm_cast

/-- Rounding a quotient of units finds the nearest double. -/
theorem isNearest_of_rank_eq (hden : 0 < den) (hrank : x.rank = nearestRank num den) :
    x.IsNearest (num / den / one) := by
  have hbelow {y : Binary64} (hlt : y.rank < x.rank) :
      EvenBound x.rank ((y.units + x.units) * den) (2 * num) := by
    rw [units, units, hrank] at *
    exact nearestRank_halfway_below hden hlt
  have habove {y : Binary64} (hlt : x.rank < y.rank) (hy : y.isNaN = false) :
      EvenBound x.rank (2 * num) ((x.units + y.units) * den) := by
    rw [units, units, hrank] at *
    exact nearestRank_halfway_above hden hlt (isNaN_eq_false_iff.1 hy)
  refine ⟨isNaN_eq_false_iff.2 (hrank ▸ nearestRank_le num den), ?_, ?_⟩
  · intro y hy
    rcases Nat.lt_trichotomy y.rank x.rank with hlt | heq | hgt
    · rw [abs_sub_le_abs_sub_iff_of_lt (magnitude_lt_magnitude_iff.2 hlt),
        magnitude_add_le_iff hden]
      exact (hbelow hlt).1
    · rw [magnitude, magnitude, units, units, heq]
    · rw [abs_sub_le_abs_sub_iff_of_gt (magnitude_lt_magnitude_iff.2 hgt),
        le_magnitude_add_iff hden]
      exact (habove hgt hy).1
  · intro y hy hne heq
    rcases Nat.lt_or_gt_of_ne hne with hlt | hgt
    · have hhalf := two_mul_eq_of_abs_sub_eq (magnitude_lt_magnitude_iff.2 hlt) heq
      exact (hbelow hlt).2 ((hbelow hlt).1.antisymm ((le_magnitude_add_iff hden).1 hhalf.ge))
    · have hhalf := two_mul_eq_of_abs_sub_eq (magnitude_lt_magnitude_iff.2 hgt) heq.symm
      exact (habove hgt hy).2
        ((habove hgt hy).1.antisymm ((magnitude_add_le_iff hden).1 hhalf.le))

end Quotient

theorem isNearest_ofUnits (negative : Bool) (num : ℕ) {den : ℕ} (hden : 0 < den) :
    (ofUnits negative num den).IsNearest (num / den / one) :=
  isNearest_of_rank_eq hden rfl

end Binary64

end CoefficientForm
