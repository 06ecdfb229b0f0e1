-- SUMMARY: Numbers of the grammar are read back, and decimals are written as such numbers.
import CoefficientForm.Json.Printer
import CoefficientForm.Proofs.Decimal.Text
import CoefficientForm.Proofs.Decimal.Value
import CoefficientForm.Proofs.Json.Grammar

/-!
# JSON numbers

A number ends where nothing follows that could belong to it. So its reader takes exactly the text
of the number off the front, piece by piece: the minus, the whole part, the places and the power of
ten. Wherever the point of a decimal falls, what is written for it is such a number with the digits
of the decimal, and the power of ten and the zeros behind them make up for the point.
-/

namespace CoefficientForm.Json

open Decimal

/-! ## What stands behind each piece -/

theorem Follows.isDigit_head {rest : List Char} (h : Follows rest) :
    ∀ c ∈ rest.head?, c.isDigit = false := by
  cases rest with
  | nil => simp
  | cons c tail =>
      rintro _ ⟨⟩
      rcases h.head_cases with rfl | rfl | rfl | rfl | rfl | rfl | rfl <;> rfl

theorem WrittenPower.head_append {exponent : Int} {power rest : List Char}
    (h : WrittenPower exponent power) (hrest : Follows rest) :
    ∀ c ∈ (power ++ rest).head?, c.isDigit = false ∧ c ≠ '.' := by
  cases h with
  | absent =>
      cases rest with
      | nil => simp
      | cons c tail =>
          rintro _ ⟨⟩
          rcases hrest.head_cases with rfl | rfl | rfl | rfl | rfl | rfl | rfl <;> decide
  | given hmark =>
      rintro _ ⟨⟩
      rcases hmark with rfl | rfl <;> decide

theorem WrittenPlaces.head_append {places point rest : List Char} (h : WrittenPlaces places point)
    (hrest : ∀ c ∈ rest.head?, c.isDigit = false ∧ c ≠ '.') :
    ∀ c ∈ (point ++ rest).head?, c.isDigit = false := by
  cases h with
  | absent => exact fun c hc => (hrest c hc).1
  | given =>
      rintro _ ⟨⟩
      rfl

/-! ## Reading -/

theorem readMinus_append {negative : Bool} {whole : List Char} (hwhole : IsDigits whole)
    (rest : List Char) :
    readMinus ((if negative then ['-'] else []) ++ (whole ++ rest)) =
      (negative, whole ++ rest) := by
  cases negative with
  | true => rfl
  | false =>
      obtain ⟨digit, tail, rfl, hdigit⟩ := hwhole.exists_cons
      simp only [Bool.false_eq_true, if_false, List.nil_append, List.cons_append]
      rw [readMinus]
      rintro _ heq
      rw [(List.cons.inj heq).1] at hdigit
      exact absurd hdigit (by decide)

theorem readPlaces_written {places point rest : List Char} (h : WrittenPlaces places point)
    (hrest : ∀ c ∈ rest.head?, c.isDigit = false ∧ c ≠ '.') :
    readPlaces (point ++ rest) = (places, rest) := by
  cases h with
  | absent =>
      cases rest with
      | nil => rfl
      | cons c tail =>
          rw [List.nil_append, readPlaces]
          rintro _ heq
          exact (hrest c rfl).2 (List.cons.inj heq).1
  | given hdigits =>
      rw [List.cons_append, readPlaces]
      exact readDigits_append_of_head hdigits.isDigit fun c hc => (hrest c hc).1

theorem readSign_written {negative : Bool} {sign digits : List Char}
    (h : WrittenSign negative sign) (hdigits : IsDigits digits) (rest : List Char) :
    readSign (sign ++ digits ++ rest) = (negative, digits ++ rest) := by
  cases h with
  | absent =>
      obtain ⟨digit, tail, rfl, hdigit⟩ := hdigits.exists_cons
      exact readSign_digit_cons hdigit _
  | plus => rfl
  | minus => rfl

theorem readPower?_written {exponent : Int} {power rest : List Char}
    (h : WrittenPower exponent power) (hrest : Follows rest) :
    readPower? (power ++ rest) = some (exponent, rest) := by
  cases h with
  | absent =>
      cases rest with
      | nil => rfl
      | cons c tail =>
          have hmark : ¬ (c = 'e' ∨ c = 'E') := by
            rcases hrest.head_cases with rfl | rfl | rfl | rfl | rfl | rfl | rfl <;> decide
          rw [List.nil_append, readPower?, if_neg hmark]
  | given hmark hsign hdigits =>
      rw [List.cons_append, List.cons_append, readPower?, if_pos hmark,
        readSign_written hsign hdigits]
      simp only [readDigits_append_of_head hdigits.isDigit hrest.isDigit_head,
        if_neg hdigits.ne_nil]

theorem readNumber_written {value : Decimal} {cs rest : List Char} (h : WrittenNumber value cs)
    (hrest : Follows rest) : readNumber (cs ++ rest) = some (value, rest) := by
  cases h with
  | @positional negative whole places point power exponent hwhole hdigits hplaces hpower =>
      have hafterPlaces := hpower.head_append hrest
      have hpoint : (places = [] && (point ++ (power ++ rest)).head? == some '.') = false := by
        cases hplaces with
        | absent =>
            rw [Bool.and_eq_false_iff, beq_eq_false_iff_ne]
            exact .inr fun hhead => (hafterPlaces '.' hhead).2 rfl
        | given hgiven => rw [decide_eq_false hgiven.ne_nil, Bool.false_and]
      simp only [readNumber, List.append_assoc,
        readMinus_append (isDigits_of_isWholePart hwhole hdigits),
        readDigits_append_of_head hdigits (hplaces.head_append hafterPlaces),
        readPlaces_written hplaces hafterPlaces, readPower?_written hpower hrest, hwhole, hpoint]
      rfl

/-! ## Writing -/

theorem isWholePart_cons {c : Char} (h : c ≠ '0') (rest : List Char) :
    isWholePart (c :: rest) = true := by
  unfold isWholePart
  split
  · rename_i heq
    cases heq
  · rename_i heq
    exact absurd (List.cons.inj heq).1 h
  · rename_i heq
    exact absurd (List.cons.inj heq).1 h
  · rfl

theorem isWholePart_append {cs : List Char} (h : isWholePart cs = true) (hzero : cs ≠ ['0'])
    (rest : List Char) : isWholePart (cs ++ rest) = true := by
  cases cs with
  | nil => cases h
  | cons c tail =>
      have hc : c ≠ '0' := by
        rintro rfl
        cases tail with
        | nil => exact hzero rfl
        | cons => cases h
      exact isWholePart_cons hc _

/-- The digits of a number start with no zero, the number zero apart. -/
theorem isWholePart_toDigits (n : Nat) : isWholePart (Nat.toDigits 10 n) = true := by
  induction n using Nat.strongRecOn with
  | ind n ih =>
      by_cases hlt : n < 10
      · rw [Nat.toDigits_of_lt_base hlt]
        interval_cases n <;> rfl
      · rw [Nat.not_lt] at hlt
        rw [Nat.toDigits_of_base_le (by decide) hlt]
        apply isWholePart_append (ih (n / 10) (by omega))
        rw [← Nat.toDigits_zero 10]
        intro hzero
        have := Text.toDigits_injective hzero
        omega

theorem isDigits_toDigits (n : Nat) : IsDigits (Nat.toDigits 10 n) :=
  ⟨Nat.toDigits_ne_nil, fun _ => Text.isDigit_of_mem_toDigits⟩

theorem exists_cons_toDigits {n : Nat} (h : n ≠ 0) :
    ∃ c rest, Nat.toDigits 10 n = c :: rest ∧ c ≠ '0' := by
  obtain ⟨c, rest, hcons⟩ := List.exists_cons_of_ne_nil (@Nat.toDigits_ne_nil n 10)
  refine ⟨c, rest, hcons, ?_⟩
  rintro rfl
  have hwhole := isWholePart_toDigits n
  rw [hcons] at hwhole
  cases rest with
  | nil => exact h (Text.toDigits_injective hcons)
  | cons => cases hwhole

/-- Whether the parts of a number say a decimal: its digits with zeros behind them, and the point
where it belongs. -/
structure NumberParts.Say (parts : NumberParts) (d : Decimal) : Prop where
  isWholePart_eq : isWholePart parts.whole = true
  isDigit_whole : ∀ c ∈ parts.whole, c.isDigit = true
  isDigit_places : ∀ c ∈ parts.places, c.isDigit = true
  length_whole_le : parts.whole.length ≤ 16
  exists_zeros : ∃ zeros : Nat,
    Nat.ofDigitChars 10 (parts.whole ++ parts.places) 0 = d.coefficient * tenTo zeros ∧
      (d.coefficient ≠ 0 → parts.power - parts.places.length = d.exponent - zeros)

section Parts

variable {d : Decimal}

theorem isDigit_of_mem_zeros {count : Nat} {c : Char} (h : c ∈ List.replicate count '0') :
    c.isDigit = true := by
  rw [List.eq_of_mem_replicate h]
  rfl

/-- The digits before the point are those in front, and zeros where there are not enough. -/
theorem say_of_zeros_behind (h : d.coefficient ≠ 0) (hexponent : 0 ≤ d.exponent)
    (hpoint : (Nat.toDigits 10 d.coefficient).length + d.exponent ≤ 16) :
    NumberParts.Say
      ⟨Nat.toDigits 10 d.coefficient ++ List.replicate d.exponent.toNat '0', ['0'], 0⟩ d := by
  obtain ⟨c, rest, hcons, hc⟩ := exists_cons_toDigits h
  refine ⟨?_, ?_, by simp, ?_, d.exponent.toNat + 1, ?_, ?_⟩
  · rw [hcons]
    exact isWholePart_cons hc _
  · intro c hmem
    rcases List.mem_append.1 hmem with hdigit | hzero
    · exact Text.isDigit_of_mem_toDigits hdigit
    · exact isDigit_of_mem_zeros hzero
  · simp only [List.length_append, List.length_replicate]
    omega
  · have hzeros : List.replicate d.exponent.toNat '0' ++ ['0'] =
        List.replicate (d.exponent.toNat + 1) '0' := List.replicate_succ'.symm
    rw [List.append_assoc, hzeros, Nat.ofDigitChars_append, Nat.ofDigitChars_replicate_zero,
      Nat.ofDigitChars_ten_toDigits, Nat.mul_comm, tenTo_eq]
  · intro _
    simp only [List.length_singleton]
    omega

/-- The point may fall behind any of the first digits. -/
theorem say_of_split {count : Nat} (h : d.coefficient ≠ 0) (hpos : 0 < count) (hcount : count ≤ 16)
    (hle : count ≤ (Nat.toDigits 10 d.coefficient).length) {power : Int}
    (hpower : power = (Nat.toDigits 10 d.coefficient).length + d.exponent - count) :
    NumberParts.Say
      ⟨(Nat.toDigits 10 d.coefficient).take count, (Nat.toDigits 10 d.coefficient).drop count,
        power⟩ d := by
  obtain ⟨c, rest, hcons, hc⟩ := exists_cons_toDigits h
  refine ⟨?_, ?_, ?_, ?_, 0, ?_, ?_⟩
  · obtain ⟨more, rfl⟩ := Nat.exists_eq_add_of_lt hpos
    rw [hcons, Nat.zero_add, List.take_succ_cons]
    exact isWholePart_cons hc _
  · exact fun _ hmem => Text.isDigit_of_mem_toDigits (List.mem_of_mem_take hmem)
  · exact fun _ hmem => Text.isDigit_of_mem_toDigits (List.mem_of_mem_drop hmem)
  · exact (List.length_take_le _ _).trans hcount
  · rw [List.take_append_drop, Nat.ofDigitChars_ten_toDigits]
    exact (Nat.mul_one _).symm
  · intro _
    simp only [List.length_drop]
    omega

/-- A number below one starts with zeros. -/
theorem say_of_zeros_before
    (hpoint : (Nat.toDigits 10 d.coefficient).length + d.exponent ≤ 0) :
    NumberParts.Say
      ⟨['0'], List.replicate (-((Nat.toDigits 10 d.coefficient).length + d.exponent)).toNat '0' ++
        Nat.toDigits 10 d.coefficient, 0⟩ d := by
  refine ⟨rfl, by simp, ?_, by simp, 0, ?_, ?_⟩
  · intro c hmem
    rcases List.mem_append.1 hmem with hzero | hdigit
    · exact isDigit_of_mem_zeros hzero
    · exact Text.isDigit_of_mem_toDigits hdigit
  · rw [List.singleton_append, ← List.cons_append, ← List.replicate_succ, Nat.ofDigitChars_append,
      Nat.ofDigitChars_replicate_zero, Nat.mul_zero, Nat.ofDigitChars_ten_toDigits]
    exact (Nat.mul_one _).symm
  · intro _
    simp only [List.length_append, List.length_replicate]
    omega

/-- Wherever the point falls, the parts say the decimal. -/
theorem say_numberParts (d : Decimal) : (numberParts d).Say d := by
  simp only [numberParts]
  split
  · rename_i hzero
    exact ⟨rfl, by simp, by simp, by simp, 0, by rw [hzero]; rfl, fun hne => absurd hzero hne⟩
  · rename_i hne
    have hlength := Nat.length_toDigits_pos (b := 10) (n := d.coefficient)
    split
    · rename_i hbehind
      exact say_of_zeros_behind hne hbehind.1 hbehind.2
    · split
      · exact say_of_split hne (by omega) (by omega) (by omega) (by omega)
      · split
        · rename_i hbefore
          exact say_of_zeros_before hbefore.2
        · exact say_of_split hne Nat.one_pos (by decide) hlength rfl

end Parts

/-- What reading the text of a decimal gives. -/
def numberRead (d : Decimal) : Decimal :=
  numberOf d.negative (numberParts d).whole (numberParts d).places (numberParts d).power

theorem writtenPlaces_placesChars {places : List Char} (h : ∀ c ∈ places, c.isDigit = true) :
    WrittenPlaces places (placesChars places) := by
  rw [placesChars]
  split
  · rename_i hnil
    rw [hnil]
    exact .absent
  · rename_i hne
    exact .given ⟨hne, h⟩

theorem writtenPower_powerChars (power : Int) : WrittenPower power (powerChars power) := by
  have hdigits := isDigits_toDigits power.natAbs
  have hsize : Nat.ofDigitChars 10 (Nat.toDigits 10 power.natAbs) 0 = power.natAbs :=
    Nat.ofDigitChars_ten_toDigits
  rw [powerChars]
  split
  · rename_i hzero
    rw [hzero]
    exact .absent
  · split
    · have hpower : power = if true then -(power.natAbs : Int) else power.natAbs := by
        rw [if_pos rfl]
        omega
      have h := @WrittenPower.given 'e' _ _ _ (.inl rfl) .minus hdigits
      rwa [hsize, ← hpower] at h
    · have hpower : power = if false then -(power.natAbs : Int) else power.natAbs := by
        rw [if_neg Bool.false_ne_true]
        omega
      have h := @WrittenPower.given 'e' _ _ _ (.inl rfl) .absent hdigits
      rwa [hsize, ← hpower] at h

theorem writtenNumber_numberChars (d : Decimal) : WrittenNumber (numberRead d) (numberChars d) :=
  have hsay := say_numberParts d
  .positional hsay.isWholePart_eq hsay.isDigit_whole (writtenPlaces_placesChars hsay.isDigit_places)
    (writtenPower_powerChars _)

/-- The numbers next to those from which on a power of ten is written. -/
example : [(⟨false, 1, 15⟩ : Decimal), ⟨false, 12, 15⟩, ⟨true, 12, -6⟩, ⟨true, 12, -7⟩].map
    (String.ofList ∘ numberChars) = ["1000000000000000.0", "1.2e16", "-0.000012", "-1.2e-6"] := by
  decide +kernel

end CoefficientForm.Json
