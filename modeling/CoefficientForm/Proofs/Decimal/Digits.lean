-- SUMMARY: Runs of digits with zeros at their ends, and how many digits a shortest decimal has.
import Mathlib.Data.List.DropRight
import CoefficientForm.Proofs.Decimal.Nearest
import CoefficientForm.Proofs.Text.Natural
import CoefficientForm.Text.Blank

/-!
# Significant digits

The digits of a number between its first and its last that are not zero are its significant ones.
Zeros in front of them do not count at all, and those behind them count as powers of ten. A double
is an integer of 53 bits times a power of two, so that even its exact decimal has no more than 768
significant digits.
-/

namespace CoefficientForm.Decimal

open Binary64

/-! ## Runs of digits -/

theorem ofDigitChars_dropWhile_zero (cs : List Char) :
    Nat.ofDigitChars 10 (cs.dropWhile (· == '0')) 0 = Nat.ofDigitChars 10 cs 0 := by
  induction cs with
  | nil => rfl
  | cons c rest ih =>
      by_cases hzero : c = '0'
      · rw [List.dropWhile_cons_of_pos (by simp [hzero]), ih, hzero, Nat.ofDigitChars_cons]
        rfl
      · rw [List.dropWhile_cons_of_neg (by simp [hzero])]

theorem exists_eq_dropTrailing_append (places : List Char) :
    ∃ zeros, places =
      Text.dropTrailing (· == '0') places ++ List.replicate zeros '0' := by
  have hzeros : places.rtakeWhile (· == '0') =
      List.replicate (places.rtakeWhile (· == '0')).length '0' := by
    rw [List.eq_replicate_iff]
    refine ⟨rfl, ?_⟩
    intro c hc
    have hzero : (c == '0') = true := List.mem_rtakeWhile_imp (p := (· == '0')) hc
    exact beq_iff_eq.1 hzero
  refine ⟨(places.rtakeWhile (· == '0')).length, ?_⟩
  rw [← hzeros]
  exact List.rdropWhile_append_rtakeWhile.symm

/-- The zeros that end a run of digits make a power of ten. -/
theorem exists_ofDigitChars_dropTrailing (whole places : List Char) :
    ∃ zeros, Nat.ofDigitChars 10 (whole ++ places) 0 =
      Nat.ofDigitChars 10 (whole ++ Text.dropTrailing (· == '0') places) 0 * tenTo zeros := by
  obtain ⟨zeros, hsplit⟩ := exists_eq_dropTrailing_append places
  refine ⟨zeros, ?_⟩
  conv_lhs => rw [hsplit]
  rw [← List.append_assoc, Nat.ofDigitChars_append _, Nat.ofDigitChars_replicate_zero, tenTo_eq,
    Nat.mul_comm]

theorem toNat_sub_zero {c : Char} (hdigit : c.isDigit = true) (hzero : c ≠ '0') :
    0 < c.toNat - '0'.toNat ∧ c.toNat - '0'.toNat < 10 := by
  obtain ⟨hlow, hhigh⟩ := Char.isDigit_iff_toNat.1 hdigit
  have hne : c.toNat ≠ '0'.toNat := fun heq => hzero (Char.toNat_inj.1 heq)
  have hten : '9'.toNat = '0'.toNat + 9 := rfl
  omega

theorem not_ten_dvd_ofDigitChars {digits : List Char} (hne : digits ≠ [])
    (hdigit : (digits.getLast hne).isDigit = true) (hzero : digits.getLast hne ≠ '0') :
    ¬ 10 ∣ Nat.ofDigitChars 10 digits 0 := by
  have hlast := toNat_sub_zero hdigit hzero
  rw [← List.dropLast_append_getLast hne, Nat.ofDigitChars_append _, Nat.ofDigitChars_cons,
    Nat.ofDigitChars_nil]
  omega

/-- A run of digits that starts with no zero is as long as its number is large. -/
theorem length_le_of_ofDigitChars_lt {digits : List Char} {limit : Nat}
    (hdigits : ∀ c ∈ digits, c.isDigit = true) (hhead : ∀ c ∈ digits.head?, c ≠ '0')
    (hlt : Nat.ofDigitChars 10 digits 0 < tenTo limit) : digits.length ≤ limit := by
  cases digits with
  | nil => exact Nat.zero_le _
  | cons c rest =>
      have hfirst := (toNat_sub_zero (hdigits c List.mem_cons_self) (hhead c rfl)).1
      have hpow : 10 ^ rest.length < 10 ^ limit := by
        calc 10 ^ rest.length = 10 ^ rest.length * 1 := (Nat.mul_one _).symm
          _ ≤ 10 ^ rest.length * (10 * 0 + (c.toNat - '0'.toNat)) := by
            apply Nat.mul_le_mul_left
            omega
          _ ≤ Nat.ofDigitChars 10 (c :: rest) 0 := by
            rw [Nat.ofDigitChars_cons, Nat.ofDigitChars_eq_ofDigitChars_zero]
            exact Nat.le_add_right _ _
          _ < 10 ^ limit := hlt
      rw [List.length_cons]
      exact (Nat.pow_lt_pow_iff_right (by decide)).1 hpow

/-! ## The digits of a number -/

/-- Whether a number is one of at most `limit` digits with zeros behind them. -/
def HasDigits (limit n : Nat) : Prop :=
  ∃ digits zeros, n = digits * tenTo zeros ∧ digits < tenTo limit

/-- Zeros make up any other form of the number, so no digits but these can stand before them. -/
theorem HasDigits.lt_of_not_ten_dvd {limit digits zeros : Nat}
    (h : HasDigits limit (digits * tenTo zeros)) (hdigits : ¬ 10 ∣ digits) :
    digits < tenTo limit := by
  obtain ⟨fewer, more, heq, hlt⟩ := h
  simp only [tenTo_eq] at heq hlt ⊢
  have hle : more ≤ zeros := by
    by_contra hnot
    obtain ⟨extra, rfl⟩ : ∃ extra, more = zeros + (extra + 1) := ⟨more - zeros - 1, by omega⟩
    apply hdigits
    rw [pow_add, ← Nat.mul_assoc, Nat.mul_right_comm] at heq
    rw [Nat.mul_right_cancel (by positivity) heq, pow_succ', Nat.mul_left_comm]
    exact Nat.dvd_mul_right _ _
  obtain ⟨extra, rfl⟩ := Nat.exists_eq_add_of_le hle
  rw [pow_add, ← Nat.mul_assoc, Nat.mul_right_comm] at heq
  have hfewer := Nat.mul_right_cancel (by positivity) heq
  calc digits ≤ digits * 10 ^ extra := Nat.le_mul_of_pos_right _ (by positivity)
    _ = fewer := hfewer
    _ < 10 ^ limit := hlt

theorem HasDigits.mul_tenTo {limit n : Nat} (h : HasDigits limit n) (zeros : Nat) :
    HasDigits limit (n * tenTo zeros) := by
  obtain ⟨digits, more, rfl, hlt⟩ := h
  refine ⟨digits, more + zeros, ?_, hlt⟩
  rw [tenTo_eq, tenTo_eq, tenTo_eq, pow_add, Nat.mul_assoc]

/-! ## The digits of a shortest decimal -/

/-- A decimal with a finite double is below the first power of two that has none. -/
theorem ratio_lt_of_isFinite {d : Decimal} (h : d.toBinary64.isFinite = true) :
    d.ratio.1 < 2 ^ 1024 * d.ratio.2 := by
  by_contra hnot
  have hnum : 2 ^ 2098 * d.ratio.2 ≤ d.ratio.1 * one := by
    calc 2 ^ 2098 * d.ratio.2 = 2 ^ 1024 * d.ratio.2 * 2 ^ 1074 := by
          rw [Nat.mul_right_comm, ← pow_add]
      _ ≤ d.ratio.1 * one := by
          rw [one_eq]
          exact Nat.mul_le_mul_right _ (Nat.not_lt.1 hnot)
  have hrank := nearestRank_eq_infinityRank (ratio_pos d) (Nat.le_refl 2098) hnum
  rw [toBinary64_eq_ofUnits] at h
  simp [isFinite, ofUnits, hrank] at h

theorem exponent_of_onGrid? {x : Binary64} {power : Int} {d : Decimal}
    (h : onGrid? x power = some d) : d.exponent = power := by
  simp only [onGrid?] at h
  split at h
  · split at h <;> cases h <;> rfl
  · cases h
    rfl
  · cases h
    rfl
  · cases h

/-- Where no grid is hit, the exact decimal is left. -/
theorem search_eq_exact_or (x : Binary64) (tries : Nat) (power : Int) :
    search x tries power = exact x ∨ power - tries < (search x tries power).exponent := by
  induction tries generalizing power with
  | zero => exact .inl rfl
  | succ tries ih =>
      rw [search]
      cases hgrid : onGrid? x power with
      | none => exact (ih (power - 1)).imp_right fun h => by rw [Option.getD_none]; omega
      | some d =>
          right
          rw [Option.getD_some, exponent_of_onGrid? hgrid]
          omega

theorem units_lt {x : Binary64} (h : x.isFinite = true) : x.units < 2 ^ 2098 := by
  rw [← unitsOfRank_infinityRank]
  apply unitsOfRank_strictMono
  simpa [isFinite] using h

theorem two_pow_mul_five_pow (n : Nat) : 2 ^ n * 5 ^ n = tenTo n :=
  (Nat.mul_pow 2 5 n).symm

/-- Three fives are a little less than seven twos. -/
theorem five_pow_le_two_pow (n : Nat) : 5 ^ (3 * n) ≤ 2 ^ (7 * n) := by
  rw [pow_mul, pow_mul]
  exact Nat.pow_le_pow_left (by decide) n

theorem two_pow_mul_five_pow_le {twos fives limit : Nat} (extra : Nat)
    (hfives : fives ≤ 3 * extra + limit) (htwos : twos + 7 * extra ≤ limit) :
    2 ^ twos * 5 ^ fives ≤ tenTo limit := by
  calc 2 ^ twos * 5 ^ fives ≤ 2 ^ twos * 5 ^ (3 * extra + limit) :=
        Nat.mul_le_mul_left _ (Nat.pow_le_pow_right (by decide) hfives)
    _ = 2 ^ twos * 5 ^ (3 * extra) * 5 ^ limit := by rw [pow_add, Nat.mul_assoc]
    _ ≤ 2 ^ twos * 2 ^ (7 * extra) * 5 ^ limit :=
      Nat.mul_le_mul_right _ (Nat.mul_le_mul_left _ (five_pow_le_two_pow extra))
    _ = 2 ^ (twos + 7 * extra) * 5 ^ limit := by rw [pow_add]
    _ ≤ 2 ^ limit * 5 ^ limit := Nat.mul_le_mul_right _ (Nat.pow_le_pow_right (by decide) htwos)
    _ = tenTo limit := two_pow_mul_five_pow limit

/-- The twos of a significand make tens with the fives, as far as they go. -/
theorem hasDigits_mul_five_pow {significand shift fives limit : Nat}
    (hfives : significand * 5 ^ fives < tenTo limit)
    (hwhole : significand * 2 ^ shift < tenTo limit * 2 ^ fives) :
    HasDigits limit (significand * 2 ^ shift * Nat.pow 5 fives) := by
  have hpow : Nat.pow 5 fives = 5 ^ fives := rfl
  rw [hpow]
  by_cases hshift : shift ≤ fives
  · obtain ⟨rest, rfl⟩ := Nat.exists_eq_add_of_le hshift
    refine ⟨significand * 5 ^ rest, shift, ?_, ?_⟩
    · rw [pow_add, ← two_pow_mul_five_pow]
      ring
    · calc significand * 5 ^ rest ≤ significand * 5 ^ (shift + rest) :=
            Nat.mul_le_mul_left _ (Nat.pow_le_pow_right (by decide) (Nat.le_add_left _ _))
        _ < tenTo limit := hfives
  · obtain ⟨rest, rfl⟩ := Nat.exists_eq_add_of_le (Nat.not_le.1 hshift).le
    have hsplit : significand * 2 ^ (fives + rest) = significand * 2 ^ rest * 2 ^ fives := by
      rw [pow_add]
      ring
    rw [hsplit] at hwhole ⊢
    refine ⟨significand * 2 ^ rest, fives, ?_, Nat.lt_of_mul_lt_mul_right hwhole⟩
    rw [← two_pow_mul_five_pow, Nat.mul_assoc]

/-- A significand has 53 bits, so that with fives for all the twos in one it has few digits. -/
theorem hasDigits_of_fives {x : Binary64} {d : Decimal} {fives limit : Nat}
    (hfives : 2 ^ 53 * 5 ^ fives ≤ tenTo limit) (hwhole : x.units < tenTo limit * 2 ^ fives)
    (hcoefficient : d.coefficient = x.units * Nat.pow 5 fives) :
    HasDigits limit d.coefficient := by
  obtain ⟨shift, significand, hrank, hlow, hhigh⟩ := exists_shift_significand x.rank
  have hunits : x.units = significand * 2 ^ shift := by
    rw [units, hrank, unitsOfRank_add hlow hhigh.le]
  have hsize : 2 * binadeSize = 2 ^ 53 := by norm_num [binadeSize]
  rw [hsize] at hhigh
  rw [hunits] at hcoefficient hwhole
  rw [hcoefficient]
  refine hasDigits_mul_five_pow ?_ hwhole
  exact (Nat.mul_lt_mul_of_pos_right hhigh (by positivity)).trans_le hfives

theorem hasDigits_exact {x : Binary64} (h : x.isFinite = true) :
    HasDigits 768 (exact x).coefficient := by
  have hwhole : x.units < tenTo 768 * 2 ^ 1074 := by
    calc x.units < 2 ^ 2098 := units_lt h
      _ = 2 ^ 1024 * 2 ^ 1074 := by rw [← pow_add]
      _ ≤ tenTo 768 * 2 ^ 1074 := Nat.mul_le_mul_right _ (two_pow_le_tenTo (by decide))
  have hfives : 2 ^ 53 * 5 ^ 1074 ≤ tenTo 768 :=
    two_pow_mul_five_pow_le 102 (by decide) (by decide)
  exact hasDigits_of_fives hfives hwhole rfl

theorem tenTo_le_tenTo {m n : Nat} (h : m ≤ n) : tenTo m ≤ tenTo n :=
  Nat.pow_le_pow_right (by decide) h

theorem tenTo_mul_tenTo (m n : Nat) : tenTo m * tenTo n = tenTo (m + n) :=
  (pow_add 10 m n).symm

/-- A decimal with a finite double and few places has few digits. -/
theorem hasDigits_of_isFinite {d : Decimal} (h : d.toBinary64.isFinite = true)
    (hexponent : -400 ≤ d.exponent) : HasDigits 768 d.coefficient := by
  refine ⟨d.coefficient, 0, (Nat.mul_one _).symm, ?_⟩
  have hlt := ratio_lt_of_isFinite h
  rw [ratio] at hlt
  split at hlt
  · calc d.coefficient ≤ d.coefficient * tenTo d.exponent.toNat :=
          Nat.le_mul_of_pos_right _ (tenTo_pos _)
      _ < 2 ^ 1024 := by rwa [Nat.mul_one] at hlt
      _ ≤ tenTo 768 := two_pow_le_tenTo (by decide)
  · calc d.coefficient < 2 ^ 1024 * tenTo (-d.exponent).toNat := hlt
      _ ≤ tenTo 342 * tenTo 400 := by
        apply Nat.mul_le_mul (two_pow_le_tenTo (by decide))
        exact tenTo_le_tenTo (by omega)
      _ = tenTo (342 + 400) := tenTo_mul_tenTo 342 400
      _ ≤ tenTo 768 := tenTo_le_tenTo (by decide)

/-- Where the shortest decimal is not the exact one, it has few places. -/
theorem shortest_eq_exact_or (x : Binary64) :
    shortest x = exact x ∨ -400 ≤ (shortest x).exponent := by
  rw [shortest]
  split
  · exact .inr (by show (-400 : Int) ≤ 0; decide)
  · refine (search_eq_exact_or x 20 (topPower x)).imp_right fun hexponent => ?_
    have htop : -323 ≤ topPower x := by
      unfold topPower
      omega
    omega

theorem hasDigits_shortest {x : Binary64} (h : x.isFinite = true) :
    HasDigits 768 (shortest x).coefficient := by
  rcases shortest_eq_exact_or x with hexact | hexponent
  · rw [hexact]
    exact hasDigits_exact h
  · apply hasDigits_of_isFinite _ hexponent
    rw [toBinary64_shortest h]
    exact h

/-- On the grid of its exact decimal a double is not halfway between two points. -/
theorem inSteps_exact_ne (x : Binary64) :
    2 * ((inSteps x (exact x).exponent).1 % (inSteps x (exact x).exponent).2) ≠
      (inSteps x (exact x).exponent).2 := by
  have hsteps : inSteps x (exact x).exponent = (x.units * tenTo 1074, one) := rfl
  have hdvd : one ∣ x.units * tenTo 1074 := by
    rw [one_eq, ← two_pow_mul_five_pow]
    exact Nat.dvd_mul_left_of_dvd (Nat.dvd_mul_right _ _) _
  rw [hsteps, Nat.mod_eq_zero_of_dvd hdvd, one_eq]
  exact (by positivity : 0 < 2 ^ 1074).ne

theorem hasDigits_shortestEven {x : Binary64} (h : x.isFinite = true) :
    HasDigits 768 (shortestEven x).coefficient := by
  simp only [shortestEven]
  split
  · rename_i hbelow
    rcases shortest_eq_exact_or x with hexact | hexponent
    · rw [hexact] at hbelow
      exact absurd hbelow.1 (inSteps_exact_ne x)
    · refine hasDigits_of_isFinite ?_ hexponent
      rw [hbelow.2.2]
      exact h
  · exact hasDigits_shortest h

end CoefficientForm.Decimal
