-- SUMMARY: A double can be read back from its text.
import CoefficientForm.Binary64.Text
import CoefficientForm.Proofs.Decimal.Text

/-!
# Texts of doubles

A text is a word or a decimal numeral, and a decimal numeral is no word. So a double that is not a
NaN is read back from its text with all its bits, and the text of a NaN is read back as a NaN.
-/

namespace CoefficientForm.Binary64

/-! ## Words and numerals -/

theorem toLower_of_isDigit {c : Char} (h : c.isDigit = true) : c.toLower = c := by
  simp only [Char.isDigit, Bool.and_eq_true, decide_eq_true_eq] at h
  unfold Char.toLower
  rw [dif_neg]
  intro hupper
  have hbelow : 'A'.val ≤ '9'.val := UInt32.le_trans hupper.1 h.2
  exact absurd hbelow (by decide)

theorem ofWord?_of_isDigit {c : Char} (h : c.isDigit = true) (negative : Bool) (rest : List Char) :
    ofWord? negative (c :: rest) = none := by
  have hword {letter : Char} (hletter : letter.isDigit = false) (letters : List Char) :
      (c :: rest).map Char.toLower ≠ letter :: letters := by
    intro heq
    rw [List.map_cons, toLower_of_isDigit h, List.cons.injEq] at heq
    rw [heq.1, hletter] at h
    cases h
  unfold ofWord?
  rw [if_neg (not_or_intro (hword rfl _) (hword rfl _)), if_neg (hword rfl _)]

/-- The positional text of a decimal denotes the double nearest to it. -/
theorem ofChars?_text (d : Decimal) : ofChars? d.text = some d.toBinary64 := by
  obtain ⟨digit, rest, hcons, hdigit⟩ := Decimal.exists_digit_cons_magnitudeText d
  have hword : ofWord? d.negative d.magnitudeText = none := by
    rw [hcons]
    exact ofWord?_of_isDigit hdigit d.negative rest
  unfold ofChars?
  rw [Decimal.readSign_text]
  simp only [hword, Decimal.ofUnsigned?_magnitudeText, Option.map_some,
    Decimal.toBinary64_positional]

/-! ## The text of a double -/

theorem eq_infinity {x : Binary64} (h : x.isInfinite = true) : x = infinity x.negative := by
  obtain ⟨negative, rank, hlt⟩ := x
  obtain rfl : rank = infinityRank := beq_iff_eq.1 h
  rfl

theorem toList_text_of_isFinite {x : Binary64} (h : x.isFinite = true) :
    x.text.toList = (Decimal.shortest x).text := by
  simp [text, isNaN_of_isFinite h, isInfinite_of_isFinite h]

theorem ofText?_text {x : Binary64} (h : ¬ x.isNaN = true) : ofText? x.text = some x := by
  by_cases hinf : x.isInfinite = true
  · rw [text, if_neg h, if_pos hinf, eq_infinity hinf]
    cases x.negative <;> rfl
  · have hfinite := isFinite_of_not_isNaN h hinf
    rw [ofText?, toList_text_of_isFinite hfinite, ofChars?_text,
      Decimal.toBinary64_shortest hfinite]

theorem text_of_isNaN {x : Binary64} (h : x.isNaN = true) : x.text = "NaN" :=
  if_pos h

/-- Equal bits, or two NaNs: what two doubles of one text have in common. -/
def SameUpToNaN (x y : Binary64) : Prop :=
  x = y ∨ x.isNaN = true ∧ y.isNaN = true

/-- Whatever a double is, its text denotes it up to the bits of a NaN. -/
theorem exists_ofText?_text (x : Binary64) : ∃ y, ofText? x.text = some y ∧ x.SameUpToNaN y := by
  by_cases h : x.isNaN = true
  · refine ⟨nan false, ?_, Or.inr ⟨h, by decide⟩⟩
    rw [text_of_isNaN h]
    rfl
  · exact ⟨x, ofText?_text h, Or.inl rfl⟩

theorem sameUpToNaN_of_text_eq {x y : Binary64} (h : x.text = y.text) : x.SameUpToNaN y := by
  obtain ⟨read, hread, hx⟩ := exists_ofText?_text x
  rw [h] at hread
  obtain ⟨other, hother, hy⟩ := exists_ofText?_text y
  obtain rfl : read = other := Option.some.inj (hread.symm.trans hother)
  rcases hx with rfl | ⟨hx, hread⟩
  · rcases hy with rfl | ⟨hy, hx⟩
    · exact Or.inl rfl
    · exact Or.inr ⟨hx, hy⟩
  · rcases hy with rfl | ⟨hy, _⟩
    · exact Or.inr ⟨hx, hread⟩
    · exact Or.inr ⟨hx, hy⟩

theorem mem_toList_text {x : Binary64} {c : Char} (h : c ∈ x.text.toList) :
    c.isAlphanum = true ∨ c = '-' ∨ c = '.' := by
  by_cases hnan : x.isNaN = true
  · have hword : "NaN".toList.all Char.isAlphanum = true := rfl
    rw [text_of_isNaN hnan] at h
    exact Or.inl (List.all_eq_true.1 hword c h)
  · by_cases hinf : x.isInfinite = true
    · have hword : "inf".toList.all Char.isAlphanum = true := rfl
      rw [text, if_neg hnan, if_pos hinf] at h
      cases hnegative : x.negative with
      | false =>
          rw [hnegative] at h
          exact Or.inl (List.all_eq_true.1 hword c h)
      | true =>
          rw [hnegative] at h
          rcases List.mem_cons.1 h with hminus | hletter
          · exact Or.inr (Or.inl hminus)
          · exact Or.inl (List.all_eq_true.1 hword c hletter)
    · rw [toList_text_of_isFinite (isFinite_of_not_isNaN hnan hinf)] at h
      refine (Decimal.mem_text h).imp_left ?_
      intro hdigit
      rw [Char.isAlphanum, hdigit, Bool.or_true]

end CoefficientForm.Binary64
