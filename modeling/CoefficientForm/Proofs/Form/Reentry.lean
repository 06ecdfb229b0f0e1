-- SUMMARY: A form takes back the coefficients that another one gave.
import CoefficientForm.Proofs.Binary64.Text
import CoefficientForm.Proofs.Degree.Verdict
import CoefficientForm.Proofs.Form.Filling
import CoefficientForm.Proofs.Form.History
import CoefficientForm.Proofs.Text.Blank

/-!
# Entering coefficients again

A degree and a finite number are read back from their texts as they are typed into a form. So a new
form with the same settings takes the texts of submitted coefficients, the leading one first, and
submits the same coefficients.
-/

namespace CoefficientForm

/-! ## Texts that are typed in -/

theorem Binary64.trimmed_text (x : Binary64) : Text.trimmed x.text = x.text := by
  apply Text.trimmed_of_forall
  intro c hc
  rcases mem_toList_text hc with halphanum | rfl | rfl
  · exact Text.isBlank_of_isAlphanum halphanum
  · rfl
  · rfl

theorem Binary64.ne_empty_of_ofText? {s : String} {x : Binary64} (h : ofText? s = some x) :
    s ≠ "" := by
  rintro rfl
  cases h

theorem Binary64.text_ne_empty (x : Binary64) : x.text ≠ "" := by
  obtain ⟨read, hread, -⟩ := exists_ofText?_text x
  exact ne_empty_of_ofText? hread

theorem coefficientOf_text {x : Binary64} (h : x.isFinite = true) :
    coefficientOf x.text = .ok x := by
  have hread : Binary64.ofText? x.text = some x :=
    Binary64.ofText?_text (Bool.eq_false_iff.1 (Binary64.isNaN_of_isFinite h))
  rw [coefficientOf_eq_ok_iff, Binary64.trimmed_text]
  exact .inr ⟨x.text_ne_empty, hread, h⟩

namespace Degree

/-- The digits of a degree denote it exactly. -/
theorem ofText?_text (degree : Degree) :
    Binary64.ofText? degree.text = some (.ofUInt32 degree.value) := by
  let whole : Decimal := ⟨false, degree.value.toNat, 0⟩
  have hratio : whole.ratio = (degree.value.toNat, 1) := by
    simp [Decimal.ratio, whole, Decimal.tenTo]
  have htext : degree.text.toList = whole.text := by
    simp [text, Nat.toString_eq_repr, Nat.toList_repr, Decimal.text, Decimal.magnitudeText, whole,
      Decimal.tenTo]
  rw [Binary64.ofText?, htext, Binary64.ofChars?_text, Decimal.toBinary64_eq_ofUnits, hratio]
  rfl

theorem ofValue_ofUInt32 {bounds : DegreeBounds} {n : UInt32} (hmin : bounds.min ≤ n)
    (hmax : n ≤ bounds.max) : ofValue bounds (.ofUInt32 n) = .ok ⟨n⟩ := by
  have hfinite := Binary64.isFinite_ofUInt32 n
  have hverdict : ValueVerdict bounds (.ofUInt32 n) (.ok ⟨n⟩) :=
    .accepted hfinite (Binary64.toRat_ofUInt32 n) hmin hmax
  exact hverdict.ofValue_eq (Binary64.isNaN_of_isFinite hfinite)

/-- A degree within the bounds is accepted as it is written. -/
theorem ofText_text {bounds : DegreeBounds} {degree : Degree} (hmin : bounds.min ≤ degree.value)
    (hmax : degree.value ≤ bounds.max) : ofText bounds degree.text = .ok degree := by
  have hread := degree.ofText?_text
  have htrimmed : Text.trimmed degree.text = degree.text := by
    apply Text.trimmed_of_forall
    intro c hc
    rw [text, Nat.toString_eq_repr, Nat.toList_repr] at hc
    apply Text.isBlank_of_isAlphanum
    rw [Char.isAlphanum, Text.isDigit_of_mem_toDigits hc, Bool.or_true]
  simp only [ofText, htrimmed, Binary64.ne_empty_of_ofText? hread, hread,
    Binary64.isNaN_of_isFinite (Binary64.isFinite_ofUInt32 degree.value), if_false,
    Bool.false_eq_true, ofValue_ofUInt32 hmin hmax]

end Degree

/-- The texts of the coefficients, that of the leading one first. -/
def Coefficients.texts (coefficients : Coefficients) : List String :=
  coefficients.values.toList.reverse.map Binary64.text

theorem Coefficients.getElem?_texts {coefficients : Coefficients} {degree : Degree}
    (hsize : coefficients.values.size = degree.termCount) {index : Nat}
    (hindex : index < degree.termCount) :
    coefficients.texts[index]? =
      (coefficients.values[degree.value.toNat - index]?).map Binary64.text := by
  have hlength : coefficients.values.toList.length = degree.termCount := hsize
  rw [texts, List.getElem?_map, List.getElem?_reverse (hlength ▸ hindex), hlength,
    Array.getElem?_toList]
  congr 2

theorem Coefficients.length_texts (coefficients : Coefficients) :
    coefficients.texts.length = coefficients.values.size := by
  rw [texts, List.length_map, List.length_reverse, Array.length_toList]

/-- At the exponent of a degree stands a coefficient, and its text at the place of its field. -/
theorem Coefficients.exists_get?_and_text {coefficients : Coefficients} {degree : Degree}
    (hsize : coefficients.values.size = degree.termCount) {exponent : UInt32}
    (hexponent : exponent ≤ degree.value) :
    ∃ value ∈ coefficients.values, coefficients.get? exponent = some value ∧
      coefficients.texts[degree.value.toNat - exponent.toNat]? = some value.text := by
  have hlt : exponent.toNat < coefficients.values.size := by
    rw [hsize, Degree.toNat_lt_termCount_iff]
    exact hexponent
  have hget : coefficients.get? exponent = some coefficients.values[exponent.toNat] :=
    Array.getElem?_eq_getElem hlt
  refine ⟨coefficients.values[exponent.toNat], Array.getElem_mem hlt, hget, ?_⟩
  rw [getElem?_texts hsize (Nat.lt_succ_of_le (Nat.sub_le _ _)),
    Nat.sub_sub_self (UInt32.le_iff_toNat_le.1 hexponent), ← get?, hget, Option.map_some]

/-! ## Submitting again -/

namespace Form

/-- A new form takes the texts of finite coefficients one after another and submits them. -/
theorem run_of_texts {settings : Settings} {degree : Degree} {coefficients : Coefficients}
    (hmin : settings.bounds.min ≤ degree.value) (hmax : degree.value ≤ settings.bounds.max)
    (hsize : coefficients.values.size = degree.termCount)
    (hfinite : ∀ value ∈ coefficients.values, value.isFinite = true) :
    let opened := (empty settings).after [.typeDegree degree.text, .go]
    let fills := (opened.slots.zip coefficients.texts).map fun (name, text) =>
      Action.enter name text
    ((empty settings).run ([Action.typeDegree degree.text, .go] ++ fills ++ [Action.submit])).map
        Response.reply =
      [Reply.done, .degree (.ok degree)] ++
        List.replicate degree.termCount (Reply.entered (.ok ())) ++
        [Reply.submitted (.ok coefficients)] := by
  intro opened fills
  have hcheck : ((empty settings).withDegreeText degree.text).checkDegree = .ok degree :=
    Degree.ofText_text hmin hmax
  have hopened : opened = ((empty settings).withDegreeText degree.text).acceptDegree degree :=
    step_go_of_ok hcheck
  have hshows : opened.Shows degree := hopened ▸ shows_acceptDegree hcheck
  have hlength : coefficients.texts.length = degree.termCount :=
    coefficients.length_texts.trans hsize
  obtain ⟨filled, hfilled, hfilledShows, hentered⟩ := hshows.fill hlength.le
  obtain ⟨hreplies, hafter⟩ := run_enter_of_enterAll hfilled
  have hsubmit : filled.submit = .ok coefficients := by
    refine hfilledShows.submit_eq_ok_iff.2 ⟨hsize, ?_⟩
    intro name hname
    obtain ⟨value, hmem, hget, htext⟩ := Coefficients.exists_get?_and_text hsize hname
    refine ⟨value.text, value, ?_, coefficientOf_text (hfinite value hmem), hget⟩
    rw [hentered name hname, htext, Option.some_or]
  have hcount : (opened.slots.zip coefficients.texts).length = degree.termCount := by
    rw [List.length_zip, hshows.length_slots, hlength, Nat.min_self]
  have hstart : ((empty settings).run [.typeDegree degree.text, .go]).map Response.reply =
      [.done, .degree (.ok degree)] := by
    simp only [run, step, List.map_cons, List.map_nil, hcheck]
  have hend : (filled.run [.submit]).map Response.reply = [.submitted (.ok coefficients)] := by
    simp only [run, step, List.map_cons, List.map_nil, hsubmit]
  rw [run_append, run_append, after_append, List.map_append, List.map_append, hstart, hreplies,
    hafter, hend, hcount]

end Form

end CoefficientForm
