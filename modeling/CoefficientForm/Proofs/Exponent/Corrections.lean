-- SUMMARY: The corrections of an exponent account for every change, and for nothing else.
import CoefficientForm.Proofs.Exponent.Nearest

/-!
# Corrections

The corrections that come with a shown exponent lead from the number given to the exponent shown.
Each takes up the number that the one before it left, and each changes it. There are at most three,
in a fixed order, and each is there exactly when the exact value calls for it.
-/

namespace CoefficientForm

open Binary64

/-! ## Corrections in a row -/

namespace Correction

inductive Kind where
  | rounded
  | flipped
  | replaced
deriving DecidableEq

def kind : Correction → Kind
  | .rounded _ _ => .rounded
  | .flipped _ _ => .flipped
  | .replaced _ _ => .replaced

/-- The number that is corrected. -/
def before : Correction → Binary64
  | .rounded before _ | .flipped before _ | .replaced before _ => before

/-- The number that it is corrected to. -/
def after : Correction → Binary64
  | .rounded _ after | .flipped _ after => after
  | .replaced _ after => .ofUInt32 after

/-- Whether two doubles differ, in their bits and as numbers. -/
def Differ (x y : Binary64) : Prop :=
  x ≠ y ∧ x.sameNumber y = false

/-- Whether corrections lead from one number to another. Each corrects what the one before it left,
and what it leaves differs from that. -/
def Leads : Binary64 → List Correction → Binary64 → Prop
  | first, [], last => first = last
  | first, correction :: rest, last =>
    correction.before = first ∧ Differ correction.before correction.after ∧
      Leads correction.after rest last

theorem Leads.concat {first last : Binary64} {corrections : List Correction}
    (h : Leads first corrections last) (correction : Correction)
    (hbefore : correction.before = last) (hdiffer : Differ correction.before correction.after) :
    Leads first (corrections ++ [correction]) correction.after := by
  induction corrections generalizing first with
  | nil => exact ⟨hbefore.trans h.symm, hdiffer, rfl⟩
  | cons head rest ih => exact ⟨h.1, h.2.1, ih h.2.2⟩

theorem differ_of_scaled_ne {x y : Binary64} (hx : x.isFinite = true) (hy : y.isFinite = true)
    (h : x.scaled ≠ y.scaled) : Differ x y := by
  refine ⟨fun heq => h (congrArg scaled heq), ?_⟩
  rw [← Bool.not_eq_true, sameNumber_iff hx hy]
  exact h

theorem differ_of_not_isFinite {x y : Binary64} (hx : ¬ x.isFinite = true)
    (hy : y.isFinite = true) : Differ x y := by
  have hne : x.signedRank ≠ y.signedRank := by
    simp only [isFinite, decide_eq_true_eq, signedRank] at hx hy ⊢
    split_ifs <;> omega
  refine ⟨?_, ?_⟩
  · rintro rfl
    exact hx hy
  · simp [sameNumber, hne]

end Correction

namespace Exponent

open Correction (Leads Differ differ_of_scaled_ne differ_of_not_isFinite)

/-! ## Which corrections there are -/

theorem kinds_shownMagnitude {y : Binary64} {n : ℕ} (hy : y.isFinite = true)
    (h : y.scaled = n * one) (earlier : List Correction) :
    (shownMagnitude y earlier).corrections.map Correction.kind =
      earlier.map Correction.kind ++ if 2 ^ 32 - 1 < n then [.replaced] else [] := by
  simp only [shownMagnitude, largest_less_iff hy h]
  split
  · exact List.map_append
  · exact (List.append_nil _).symm

theorem kinds_shownInteger {y : Binary64} {n : ℤ} (hy : y.isFinite = true)
    (h : y.scaled = n * one) (earlier : List Correction) :
    (shownInteger y earlier).corrections.map Correction.kind =
      earlier.map Correction.kind ++ (if n < 0 then [.flipped] else []) ++
        if 2 ^ 32 - 1 < n.natAbs then [.replaced] else [] := by
  simp only [shownInteger, less_zero_iff hy h]
  split
  · rw [kinds_shownMagnitude (y := y.abs) hy (scaled_abs h), List.map_append]
    rfl
  · rename_i hnonneg
    rw [List.append_nil]
    exact kinds_shownMagnitude hy (scaled_of_nonneg h (Int.not_lt.1 hnonneg)) earlier

/-- The kinds of the corrections that a number calls for. -/
def kindsFor (fractional negative large : Bool) : List Correction.Kind :=
  (if fractional then [.rounded] else []) ++ (if negative then [.flipped] else []) ++
    if large then [.replaced] else []

theorem kinds_shown {x : Binary64} (hx : x.isFinite = true) :
    (shown x).corrections.map Correction.kind =
      kindsFor (!x.isIntegral) (decide (⌊x.toRat + 1 / 2⌋ < 0))
        (decide (2 ^ 32 - 1 < ⌊x.toRat + 1 / 2⌋.natAbs)) := by
  obtain ⟨hstart, hscaled⟩ := isFinite_and_scaled_start hx
  rw [shown_of_isFinite hx, kinds_shownInteger hstart hscaled]
  simp only [kindsFor, decide_eq_true_eq]
  cases x.isIntegral <;> rfl

section Kinds

variable (fractional negative large : Bool)

theorem kindsFor_sublist :
    (kindsFor fractional negative large).Sublist [.rounded, .flipped, .replaced] := by
  revert fractional negative large
  decide

theorem rounded_mem_kindsFor_iff :
    .rounded ∈ kindsFor fractional negative large ↔ fractional = true := by
  revert fractional negative large
  decide

theorem flipped_mem_kindsFor_iff :
    .flipped ∈ kindsFor fractional negative large ↔ negative = true := by
  revert fractional negative large
  decide

theorem replaced_mem_kindsFor_iff :
    .replaced ∈ kindsFor fractional negative large ↔ large = true := by
  revert fractional negative large
  decide

theorem kindsFor_eq_nil_iff :
    kindsFor fractional negative large = [] ↔
      fractional = false ∧ negative = false ∧ large = false := by
  revert fractional negative large
  decide

end Kinds

/-! ## Where they lead -/

/-- Whether the corrections that come with a shown exponent lead to it. -/
def AccountFor (first : Binary64) (shown : Shown) : Prop :=
  ∃ last, Leads first shown.corrections last ∧ last.isFinite = true ∧
    last.toRat = shown.value.toNat

theorem accountFor_replaced {first y : Binary64} {earlier : List Correction} (value : UInt32)
    (hleads : Leads first earlier y) (hdiffer : Differ y (.ofUInt32 value)) :
    AccountFor first ⟨value, earlier ++ [.replaced y value]⟩ :=
  ⟨_, hleads.concat (.replaced y value) rfl hdiffer, isFinite_ofUInt32 _, toRat_ofUInt32 _⟩

theorem accountFor_shownMagnitude {first y : Binary64} {n : ℕ} {earlier : List Correction}
    (hy : y.isFinite = true) (h : y.scaled = n * one) (hleads : Leads first earlier y) :
    AccountFor first (shownMagnitude y earlier) := by
  rw [shownMagnitude]
  split
  · rename_i hless
    apply accountFor_replaced _ hleads
    rw [less_iff (isFinite_ofUInt32 _) hy] at hless
    exact differ_of_scaled_ne hy (isFinite_ofUInt32 _) hless.ne'
  · rename_i hless
    have hn : n ≤ 2 ^ 32 - 1 := by rwa [largest_less_iff hy h, Nat.not_lt] at hless
    refine ⟨y, hleads, hy, ?_⟩
    rw [toNat_toUInt32 h hn]
    exact toRat_eq_intCast_iff.2 h

theorem accountFor_shownInteger {first y : Binary64} {n : ℤ} {earlier : List Correction}
    (hy : y.isFinite = true) (h : y.scaled = n * one) (hleads : Leads first earlier y) :
    AccountFor first (shownInteger y earlier) := by
  rw [shownInteger]
  split
  · rename_i hless
    have habs : y.abs.isFinite = true := hy
    have hneg : y.scaled < 0 := (less_iff hy (by decide)).1 hless
    have hpos : 0 ≤ y.abs.scaled := Int.natCast_nonneg y.units
    apply accountFor_shownMagnitude habs (scaled_abs h)
    exact hleads.concat (.flipped y y.abs) rfl
      (differ_of_scaled_ne hy habs (hneg.trans_le hpos).ne)
  · rename_i hless
    rw [less_zero_iff hy h, Int.not_lt] at hless
    exact accountFor_shownMagnitude hy (scaled_of_nonneg h hless) hleads

theorem leads_start {x : Binary64} (hx : x.isFinite = true) :
    Leads x (if x.isIntegral then [] else [.rounded x (start x)]) (start x) := by
  obtain ⟨hstart, hscaled⟩ := isFinite_and_scaled_start hx
  split
  · rename_i hintegral
    rw [start, if_pos hintegral]
    rfl
  · rename_i hintegral
    refine ⟨rfl, differ_of_scaled_ne hx hstart ?_, rfl⟩
    intro heq
    exact hintegral (isIntegral_iff.2 ⟨_, toRat_eq_intCast_iff.2 (heq.trans hscaled)⟩)

theorem accountFor_shown (x : Binary64) : AccountFor x (shown x) := by
  by_cases hx : x.isFinite = true
  · obtain ⟨hstart, hscaled⟩ := isFinite_and_scaled_start hx
    rw [shown_of_isFinite hx]
    exact accountFor_shownInteger hstart hscaled (leads_start hx)
  · obtain ⟨value, hshown⟩ := exists_shown_of_not_isFinite hx
    have hleads : Leads x [] x := rfl
    rw [hshown]
    exact accountFor_replaced value hleads (differ_of_not_isFinite hx (isFinite_ofUInt32 _))

/-! ## The whole account -/

theorem corrections_eq_nil_iff {x : Binary64} (hx : x.isFinite = true) :
    (shown x).corrections = [] ↔ ∃ n : ℕ, n ≤ 2 ^ 32 - 1 ∧ x.toRat = n := by
  rw [← List.map_eq_nil_iff (f := Correction.kind), kinds_shown hx, kindsFor_eq_nil_iff,
    Bool.not_eq_false', isIntegral_iff, decide_eq_false_iff_not, decide_eq_false_iff_not, not_lt,
    not_lt, ← round_eq]
  constructor
  · rintro ⟨⟨n, hn⟩, hnonneg, hle⟩
    rw [hn, round_intCast] at hnonneg hle
    refine ⟨n.natAbs, hle, ?_⟩
    rw [hn, ← Int.cast_natCast, Int.natAbs_of_nonneg hnonneg]
  · rintro ⟨n, hle, hn⟩
    rw [hn, round_natCast]
    exact ⟨⟨n, rfl⟩, Int.natCast_nonneg n, hle⟩

/-- The corrections of every double are a full account of it. There is at most one of each kind, in
a fixed order: a rounding exactly for what is no integer, a flip exactly where the nearest integer
is negative, and a replacement exactly where there is no such integer or it exceeds 32 bits. They
lead from the double itself to the exponent shown, and each of them changes something. So nothing is
corrected exactly when an exponent of 32 bits was given, and no shown exponent is corrected. -/
theorem corrections_account_for_shown (x : Binary64) :
    let nearest := ⌊x.toRat + 1 / 2⌋
    let kinds := (shown x).corrections.map Correction.kind
    kinds.Sublist [.rounded, .flipped, .replaced] ∧
    (.rounded ∈ kinds ↔ x.isFinite = true ∧ ∀ n : ℤ, x.toRat ≠ n) ∧
    (.flipped ∈ kinds ↔ x.isFinite = true ∧ nearest < 0) ∧
    (.replaced ∈ kinds ↔
      x.isNaN = true ∨ x.isInfinite = true ∨ x.isFinite = true ∧ 2 ^ 32 - 1 < nearest.natAbs) ∧
    (∃ last, Leads x (shown x).corrections last ∧ last.isFinite = true ∧
      last.toRat = (shown x).value.toNat) ∧
    ((shown x).corrections = [] ↔ x.isFinite = true ∧ ∃ n : ℕ, n ≤ 2 ^ 32 - 1 ∧ x.toRat = n) ∧
    shown (.ofUInt32 (shown x).value) = ⟨(shown x).value, []⟩ := by
  intro nearest kinds
  by_cases hx : x.isFinite = true
  · have hkinds : kinds = kindsFor (!x.isIntegral) (decide (nearest < 0))
        (decide (2 ^ 32 - 1 < nearest.natAbs)) := kinds_shown hx
    have hfractional : (!x.isIntegral) = true ↔ ∀ n : ℤ, x.toRat ≠ n := by
      rw [Bool.not_eq_true', ← Bool.not_eq_true, isIntegral_iff, not_exists]
    rw [hkinds, rounded_mem_kindsFor_iff, flipped_mem_kindsFor_iff, replaced_mem_kindsFor_iff,
      corrections_eq_nil_iff hx, hfractional, isNaN_of_isFinite hx, isInfinite_of_isFinite hx]
    exact ⟨kindsFor_sublist _ _ _, by simp [hx], by simp [hx], by simp [hx], accountFor_shown x,
      by simp [hx], shown_ofUInt32 _⟩
  · obtain ⟨value, hshown⟩ := exists_shown_of_not_isFinite hx
    have hkinds : kinds = [.replaced] := by
      simp only [kinds, hshown]
      rfl
    rw [hkinds]
    refine ⟨by decide, by simp [hx], by simp [hx], ?_, accountFor_shown x, by simp [hx, hshown],
      shown_ofUInt32 _⟩
    have hkind := isNaN_or_isInfinite hx
    simp [hx, hkind]

/-- A double just below -2^32 needs all three corrections. -/
example : ((shown ⟨true, 0x41F0000000040000, by decide⟩).corrections.map Correction.kind) =
    [.rounded, .flipped, .replaced] := by
  decide +kernel

end Exponent

end CoefficientForm
