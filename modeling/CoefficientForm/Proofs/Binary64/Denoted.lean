-- SUMMARY: The texts that denote a double, and that exactly these are read.
import CoefficientForm.Proofs.Binary64.Text
import CoefficientForm.Proofs.Decimal.Numeral
import CoefficientForm.Proofs.Decimal.Value

/-!
# What texts denote

A text denotes infinity or NaN by a word, in any letters and with any sign, or a double by a numeral,
the one nearest to the exact value of the numeral and with its sign. These are the texts that are
read, and no text denotes two doubles.
-/

namespace CoefficientForm.Binary64

open Decimal (WrittenMagnitude WrittenNumeral Unsigned readSign_append)
open Json (WrittenSign)

/-- Whether a text is a word, whatever its letters are, capital or small. -/
def Reads (word : String) (cs : List Char) : Prop :=
  cs.map Char.toLower = word.toList

instance (word : String) (cs : List Char) : Decidable (Reads word cs) :=
  inferInstanceAs (Decidable (_ = _))

/-- What a text denotes, said by rules and not by reading. -/
inductive Denotes : List Char → Binary64 → Prop
  | infinity {negative : Bool} {sign cs : List Char} : WrittenSign negative sign →
      Reads "inf" cs ∨ Reads "infinity" cs → Denotes (sign ++ cs) (infinity negative)
  | nan {negative : Bool} {sign cs : List Char} : WrittenSign negative sign → Reads "nan" cs →
      Denotes (sign ++ cs) (nan negative)
  | numeral {d : Decimal} {cs : List Char} {x : Binary64} : WrittenNumeral d cs →
      x.negative = d.negative → x.IsNearest |d.toRat| → Denotes cs x

/-! ## Words -/

theorem Reads.unsigned {word : String} {cs : List Char} (h : Reads word cs)
    (hword : Unsigned word.toList) : Unsigned cs := by
  have hhead : word.toList.head? = cs.head?.map Char.toLower := by
    rw [← h, List.head?_map]
  rw [Unsigned, hhead] at hword
  constructor <;> intro heq <;> rw [heq] at hword
  · exact hword.1 rfl
  · exact hword.2 rfl

theorem Reads.not_reads {word other : String} {cs : List Char} (h : Reads word cs)
    (hne : word ≠ other) : ¬ Reads other cs := by
  intro hother
  exact hne (String.toList_inj.1 (h.symm.trans hother))

theorem ofWord?_eq_some_iff {negative : Bool} {cs : List Char} {x : Binary64} :
    ofWord? negative cs = some x ↔
      (Reads "inf" cs ∨ Reads "infinity" cs) ∧ x = infinity negative ∨
        Reads "nan" cs ∧ x = nan negative := by
  have hword : ofWord? negative cs =
      if Reads "inf" cs ∨ Reads "infinity" cs then some (infinity negative)
      else if Reads "nan" cs then some (nan negative) else none := rfl
  rw [hword]
  split
  · rename_i hinf
    have hnan : ¬ Reads "nan" cs := hinf.elim (·.not_reads (by decide)) (·.not_reads (by decide))
    rw [Option.some.injEq, eq_comm, and_iff_right hinf, or_iff_left fun h => hnan h.1]
  · rename_i hinf
    rw [or_iff_right fun h => hinf h.1]
    split
    · rename_i hnan
      rw [Option.some.injEq, eq_comm, and_iff_right hnan]
    · rename_i hnan
      exact ⟨fun h => (Option.some_ne_none _ h.symm).elim, fun h => absurd h.1 hnan⟩

theorem ofWord?_of_magnitude {negative : Bool} {d : Decimal} {cs : List Char}
    (h : WrittenMagnitude negative d cs) : ofWord? negative cs = none := by
  obtain ⟨c, rest, rfl, hdigit | rfl⟩ := h.exists_cons
  · exact ofWord?_of_isDigit hdigit negative rest
  · simp [ofWord?]

/-! ## Reading -/

variable {cs : List Char} {x : Binary64}

theorem Denotes.ofChars? (h : Denotes cs x) : ofChars? cs = some x := by
  cases h with
  | infinity hsign hword =>
      have hunsigned := hword.elim (·.unsigned (by decide)) (·.unsigned (by decide))
      rw [Binary64.ofChars?, readSign_append hsign hunsigned]
      simp only [ofWord?_eq_some_iff.2 (.inl ⟨hword, rfl⟩)]
  | nan hsign hword =>
      rw [Binary64.ofChars?, readSign_append hsign (hword.unsigned (by decide))]
      simp only [ofWord?_eq_some_iff.2 (.inr ⟨hword, rfl⟩)]
  | @numeral d _ _ hnumeral hnegative hnearest =>
      obtain ⟨hsign, hmagnitude⟩ := hnumeral
      rw [Binary64.ofChars?, readSign_append hsign hmagnitude.unsigned]
      simp only [ofWord?_of_magnitude hmagnitude, Decimal.ofUnsigned?_of_written hmagnitude,
        Option.map_some, Option.some.injEq]
      exact d.isNearest_toBinary64.eq hnearest (d.negative_toBinary64.trans hnegative.symm)

/-- A text is read exactly when it denotes a double, and then as that double. -/
theorem ofChars?_eq_some_iff : ofChars? cs = some x ↔ Denotes cs x := by
  refine ⟨?_, Denotes.ofChars?⟩
  intro h
  obtain ⟨sign, hsign, hcs⟩ := Decimal.exists_sign_append cs
  simp only [Binary64.ofChars?] at h
  split at h
  · rename_i hread
    cases h
    rw [hcs]
    rcases ofWord?_eq_some_iff.1 hread with ⟨hword, hx⟩ | ⟨hword, hx⟩
    · rw [hx]
      exact .infinity hsign hword
    · rw [hx]
      exact .nan hsign hword
  · obtain ⟨d, hread, rfl⟩ := Option.map_eq_some_iff.1 h
    rw [hcs]
    exact .numeral (.signed hsign (Decimal.written_of_ofUnsigned? hread)) d.negative_toBinary64
      d.isNearest_toBinary64

theorem ofText?_eq_some_iff {s : String} : ofText? s = some x ↔ Denotes s.toList x :=
  ofChars?_eq_some_iff

/-- No text denotes two doubles. -/
theorem Denotes.unique {y : Binary64} (hx : Denotes cs x) (hy : Denotes cs y) : x = y :=
  Option.some.inj (hx.ofChars?.symm.trans hy.ofChars?)

theorem denotes_toBinary64 {d : Decimal} (h : WrittenNumeral d cs) : Denotes cs d.toBinary64 :=
  .numeral h d.negative_toBinary64 d.isNearest_toBinary64

end CoefficientForm.Binary64
