-- SUMMARY: Literals of the grammar are read back, and texts are written as such literals.
import Mathlib.Tactic
import CoefficientForm.Proofs.Json.Grammar

/-!
# JSON literals

A literal is read unit by unit up to its closing quote. A character is never half of a surrogate
pair, so its code point is a unit of its own, and the two halves of its pair, where it has one, are
joined before anything else is. Joining the units of a literal thus gives the characters back,
however each of them is written.
-/

namespace CoefficientForm.Json

/-! ## Reading -/

theorem readUnits_writtenUnit {unit : Nat} {cs : List Char} (h : WrittenUnit unit cs)
    (rest : List Char) :
    readUnits (cs ++ rest) =
      (readUnits rest).map fun (units, after) => (unit :: units, after) := by
  cases h with
  | plain hcontrol hquote hbackslash =>
      rw [List.singleton_append, readUnits, if_neg (Nat.not_lt.2 hcontrol)]
      · cases readUnits rest <;> rfl
      · exact hquote
      · rintro _ _ _ _ _ rfl -
        exact hbackslash rfl
      · rintro _ _ rfl -
        exact hbackslash rfl
  | escaped hletter =>
      rw [List.cons_append, List.singleton_append, readUnits, hletter]
      · cases readUnits rest <;> rfl
      · rintro _ _ _ _ _ rfl -
        cases hletter
  | hexadecimal hunit =>
      simp only [List.cons_append, List.nil_append]
      rw [readUnits, hunit]
      cases readUnits rest <;> rfl

theorem readUnits_written {units : List Nat} {content : List Char}
    (h : WrittenUnits units content) (rest : List Char) :
    readUnits (content ++ '"' :: rest) = some (units, rest) := by
  induction h with
  | nil => rfl
  | cons hunit _ ih =>
      rw [List.append_assoc, readUnits_writtenUnit hunit, ih]
      rfl

theorem readLiteral_written {text : Option String} {tail : List Char}
    (h : WrittenLiteral text ('"' :: tail)) (rest : List Char) :
    readLiteral (tail ++ rest) = some (text, rest) := by
  cases h with
  | @quoted units content hunits =>
      show readLiteral (content ++ ['"'] ++ rest) = _
      rw [List.append_assoc, List.singleton_append, readLiteral, readUnits_written hunits]
      rfl

/-! ## Characters as units -/

theorem isHalf_toNat (c : Char) : isHighHalf c.toNat = false ∧ isLowHalf c.toNat = false := by
  have hvalid : c.toNat < 0xD800 ∨ 0xDFFF < c.toNat ∧ c.toNat < 0x110000 := c.valid
  simp only [isHighHalf, isLowHalf, Bool.and_eq_false_iff, decide_eq_false_iff_not]
  omega

theorem joinUnits?_toNat_cons (c : Char) (units : List Nat) :
    joinUnits? (c.toNat :: units) = (joinUnits? units).map (c :: ·) := by
  obtain ⟨hhigh, hlow⟩ := isHalf_toNat c
  cases units with
  | nil =>
      simp only [joinUnits?, hhigh, hlow, Char.ofNat_toNat]
      rfl
  | cons next rest =>
      simp only [joinUnits?, hhigh, hlow, Char.ofNat_toNat]
      rfl

/-- The halves of the surrogate pair that a character outside the basic plane has. -/
def highHalf (c : Char) : Nat := 0xD800 + (c.toNat - 0x10000) / 0x400

def lowHalf (c : Char) : Nat := 0xDC00 + (c.toNat - 0x10000) % 0x400

theorem joinUnits?_halves_cons {c : Char} (h : 0x10000 ≤ c.toNat) (units : List Nat) :
    joinUnits? (highHalf c :: lowHalf c :: units) = (joinUnits? units).map (c :: ·) := by
  have hvalid : c.toNat < 0xD800 ∨ 0xDFFF < c.toNat ∧ c.toNat < 0x110000 := c.valid
  have hhigh : isHighHalf (highHalf c) = true := by
    have hbounds : 0xD800 ≤ highHalf c ∧ highHalf c ≤ 0xDBFF := by
      rw [highHalf]
      omega
    simp [isHighHalf, hbounds]
  have hlow : isLowHalf (lowHalf c) = true := by
    have hbounds : 0xDC00 ≤ lowHalf c ∧ lowHalf c ≤ 0xDFFF := by
      rw [lowHalf]
      omega
    simp [isLowHalf, hbounds]
  have hjoin : joinHalves (highHalf c) (lowHalf c) = c.toNat := by
    unfold joinHalves highHalf lowHalf
    omega
  rw [joinUnits?, if_pos hhigh, if_pos hlow, hjoin, Char.ofNat_toNat]

/-- The texts of one character of a literal: those of its code point as one unit, and those of its
surrogate pair as two. -/
inductive WrittenChar (c : Char) : List Char → Prop
  | unit {cs : List Char} : WrittenUnit c.toNat cs → WrittenChar c cs
  | pair {first second : List Char} : 0x10000 ≤ c.toNat →
      WrittenUnit (highHalf c) first → WrittenUnit (lowHalf c) second →
      WrittenChar c (first ++ second)

inductive WrittenChars : List Char → List Char → Prop
  | nil : WrittenChars [] []
  | cons {c : Char} {chars cs rest : List Char} : WrittenChar c cs → WrittenChars chars rest →
      WrittenChars (c :: chars) (cs ++ rest)

theorem WrittenChars.exists_units {chars content : List Char} (h : WrittenChars chars content) :
    ∃ units, WrittenUnits units content ∧ joinUnits? units = some chars := by
  induction h with
  | nil => exact ⟨[], .nil, rfl⟩
  | cons hchar _ ih =>
      obtain ⟨units, hunits, hjoin⟩ := ih
      cases hchar with
      | unit hunit =>
          refine ⟨_, .cons hunit hunits, ?_⟩
          rw [joinUnits?_toNat_cons, hjoin]
          rfl
      | pair hplane hhigh hlow =>
          rw [List.append_assoc]
          refine ⟨_, .cons hhigh (.cons hlow hunits), ?_⟩
          rw [joinUnits?_halves_cons hplane, hjoin]
          rfl

/-- A text has a literal for every choice of how to write each of its characters. -/
theorem writtenLiteral_of_writtenChars {text : String} {content : List Char}
    (h : WrittenChars text.toList content) :
    WrittenLiteral (some text) ('"' :: content ++ ['"']) := by
  obtain ⟨units, hunits, hjoin⟩ := h.exists_units
  have hliteral := WrittenLiteral.quoted hunits
  rwa [hjoin, Option.map_some, String.ofList_toList] at hliteral

/-! ## Writing -/

theorem hexDigit?_digitChar : ∀ n < 16, hexDigit? (Nat.digitChar n) = some n := by
  decide

/-- A control is given by two zeros and two more hexadecimal digits. -/
theorem hexUnit?_of_control {n : Nat} (h : n < 0x20) :
    hexUnit? '0' '0' (Nat.digitChar (n / 16)) (Nat.digitChar (n % 16)) = some n := by
  have hzero : hexDigit? '0' = some 0 := rfl
  have hhigh := hexDigit?_digitChar (n / 16) (by omega)
  have hlow := hexDigit?_digitChar (n % 16) (by omega)
  simp only [hexUnit?, hzero, hhigh, hlow, bind, Option.bind, pure]
  rw [Option.some.injEq]
  omega

theorem writtenUnit_literalChar (c : Char) : WrittenUnit c.toNat (literalChar c) := by
  unfold literalChar
  split
  -- The seven characters that are escaped by a letter come first.
  iterate 7 exact .escaped rfl
  rename_i hquote hbackslash _ _ _ _ _
  split
  · rename_i hcontrol
    exact .hexadecimal (hexUnit?_of_control hcontrol)
  · rename_i hcontrol
    exact .plain (Nat.not_lt.1 hcontrol) hquote hbackslash

theorem writtenChars_literalChars (cs : List Char) :
    WrittenChars cs (cs.flatMap literalChar) := by
  induction cs with
  | nil => exact .nil
  | cons c rest ih =>
      rw [List.flatMap_cons]
      exact .cons (.unit (writtenUnit_literalChar c)) ih

theorem writtenLiteral_literal (text : Option String) : WrittenLiteral text (literal text) := by
  cases text with
  | some text => exact writtenLiteral_of_writtenChars (writtenChars_literalChars text.toList)
  | none =>
      have hunits : WrittenUnits [0xD800] ['\\', 'u', 'd', '8', '0', '0'] :=
        .cons (.hexadecimal rfl) .nil
      exact .quoted hunits

end CoefficientForm.Json
