-- SUMMARY: Coefficients written as JSON are read back exactly when all of them are finite.
import CoefficientForm.Coefficients.Json
import CoefficientForm.Form.Step
import CoefficientForm.Proofs.Form.Submission
import CoefficientForm.Proofs.Json.Digits
import CoefficientForm.Proofs.Json.Printer

/-!
# Coefficients through JSON

A finite coefficient is written as a number and read back with all its bits. One that is not finite
is written as null, and null is no number, so that nothing is read back at all. It does not matter
how the numbers are written, as long as each of them is nearest to its coefficient. What a form
submits is always finite.
-/

namespace CoefficientForm.Coefficients

/-! ## One coefficient -/

/-- The texts of a coefficient. A finite one has all the numbers to which it is the nearest double,
unless they have too many digits to be read one by one. One that is not finite has none but null. -/
inductive WrittenValue : Binary64 → List Char → Prop where
  | number {value : Binary64} {whole places point power : List Char} {exponent : Int} :
      value.isFinite = true → Json.isWholePart whole = true → (∀ c ∈ whole, c.isDigit = true) →
      Json.WrittenPlaces places point → Json.WrittenPower exponent power →
      (Json.significantDigits whole places).length ≤ Json.digitLimit →
      value.IsNearest |(Decimal.ofDigits value.negative whole places exponent).toRat| →
      WrittenValue value ((if value.negative then ['-'] else []) ++ whole ++ point ++ power)
  | null {value : Binary64} : value.isFinite = false → WrittenValue value "null".toList

theorem WrittenValue.exists_written {value : Binary64} {cs : List Char} (h : WrittenValue value cs) :
    ∃ item, Json.Written item cs ∧
      valueOfJson? item = if value.isFinite then some value else none := by
  cases h with
  | @number whole places point power exponent hfinite hwhole hdigits hplaces hpower hfew hnearest =>
      refine ⟨_, .number (.positional hwhole hdigits hplaces hpower), ?_⟩
      have hvalue : (Decimal.ofDigits value.negative whole places exponent).toBinary64 = value :=
        (Decimal.isNearest_toBinary64 _).eq hnearest (Decimal.negative_toBinary64 _)
      simp only [valueOfJson?, Json.numberOf_of_length_le hfew, hvalue]
  | null hinfinite =>
      refine ⟨.null, .null, ?_⟩
      rw [hinfinite]
      rfl

theorem writtenValue_valueToJson (value : Binary64) :
    WrittenValue value (valueToJson value).chars := by
  rw [valueToJson]
  cases hfinite : value.isFinite with
  | false => exact .null hfinite
  | true =>
      have hsay := Json.say_numberParts (Decimal.shortestEven value)
      have hread := Decimal.toBinary64_shortestEven hfinite
      have hsign : (Decimal.shortestEven value).negative = value.negative := by
        rw [← Decimal.negative_toBinary64, hread]
      have hnearest := hsay.isNearest
      rw [hread, hsign] at hnearest
      rw [if_pos rfl, Json.chars, Json.numberChars, hsign]
      exact .number hfinite hsay.isWholePart_eq hsay.isDigit_whole
        (Json.writtenPlaces_placesChars hsay.isDigit_places) (Json.writtenPower_powerChars _)
        (hsay.length_significantDigits_le (Decimal.hasDigits_shortestEven hfinite)) hnearest

/-! ## All coefficients -/

/-- Whether a text is an array of the coefficients. -/
def Written (coefficients : Coefficients) (text : String) : Prop :=
  ∃ texts, List.Forall₂ (fun value text => WrittenValue value text.toList)
      coefficients.values.toList texts ∧
    text = "[" ++ ",".intercalate texts ++ "]"

theorem exists_items {values : List Binary64} {texts : List String}
    (h : List.Forall₂ (fun value text => WrittenValue value text.toList) values texts) :
    ∃ items, List.Forall₂ (fun item text => Json.Written item text.toList) items texts ∧
      items.mapM valueOfJson? =
        if ∀ value ∈ values, value.isFinite = true then some values else none := by
  induction h with
  | nil => exact ⟨[], .nil, rfl⟩
  | @cons value text values texts hvalue hrest ih =>
      obtain ⟨item, hitem, hread⟩ := hvalue.exists_written
      obtain ⟨items, hitems, hreads⟩ := ih
      refine ⟨item :: items, .cons hitem hitems, ?_⟩
      rw [List.mapM_cons, hread, hreads]
      simp only [List.forall_mem_cons]
      by_cases hfinite : value.isFinite = true
      · by_cases hall : ∀ value ∈ values, value.isFinite = true
        · rw [if_pos hfinite, if_pos hall, if_pos ⟨hfinite, hall⟩]
          rfl
        · have hnot : ¬ (value.isFinite = true ∧ ∀ value ∈ values, value.isFinite = true) :=
            fun hboth => hall hboth.2
          rw [if_pos hfinite, if_neg hall, if_neg hnot]
          rfl
      · have hnot : ¬ (value.isFinite = true ∧ ∀ value ∈ values, value.isFinite = true) :=
          fun hboth => hfinite hboth.1
        rw [if_neg hfinite, if_neg hnot]
        rfl

theorem ofJsonText?_of_written {coefficients : Coefficients} {text : String}
    (h : coefficients.Written text) :
    ofJsonText? text =
      if ∀ value ∈ coefficients.values, value.isFinite = true then some coefficients else none := by
  obtain ⟨texts, htexts, rfl⟩ := h
  obtain ⟨items, hitems, hreads⟩ := exists_items htexts
  simp only [Array.mem_toList_iff] at hreads
  rw [ofJsonText?, Json.ofText?_intercalate hitems, Option.bind_some, ofJson?, hreads]
  split
  · rfl
  · rfl

theorem text_toJson (coefficients : Coefficients) :
    coefficients.toJson.text = "[" ++ ",".intercalate (coefficients.values.toList.map fun value =>
      String.ofList (valueToJson value).chars) ++ "]" := by
  apply String.toList_inj.1
  rw [toJson, Json.text, String.toList_ofList, Json.chars, Json.itemsChars_eq_intercalate,
    String.toList_append, String.toList_append, String.toList_intercalate, List.map_map,
    List.map_map]
  simp only [Function.comp_def, String.toList_ofList]
  rfl

theorem written_toJson (coefficients : Coefficients) :
    coefficients.Written coefficients.toJson.text := by
  refine ⟨_, ?_, text_toJson coefficients⟩
  rw [List.forall₂_map_right_iff, List.forall₂_same]
  intro value _
  rw [String.toList_ofList]
  exact writtenValue_valueToJson value

theorem isFinite_of_submit_after_empty {settings : Settings} {actions : List Form.Action}
    {coefficients : Coefficients}
    (hsubmit : ((Form.empty settings).after actions).submit = .ok coefficients) :
    ∀ value ∈ coefficients.values, value.isFinite = true := by
  have hconsistent := Form.consistent_after_empty settings actions
  obtain ⟨degree, hshows⟩ := hconsistent.shows_of_submit_eq_ok hsubmit
  exact fun _ => hshows.isFinite_of_submit hsubmit

/-- Coefficients are written as one array, with the shortest digits of each that is finite and null
for each that is not. From this array, and from every other one of the same coefficients, they are
read back if all of them are finite, zeros with their signs and all other bits included, and
otherwise nothing is read. So whatever a form submits is read back. -/
theorem ofJsonText?_of_finite_or_not (coefficients : Coefficients) :
    coefficients.toJson.text = "[" ++ ",".intercalate (coefficients.values.toList.map fun value =>
      if value.isFinite then String.ofList (Json.numberChars (Decimal.shortestEven value))
      else "null") ++ "]" ∧
    coefficients.Written coefficients.toJson.text ∧
    ∀ text, coefficients.Written text →
      ((∀ value ∈ coefficients.values, value.isFinite = true) →
        ofJsonText? text = some coefficients) ∧
      ((∃ value ∈ coefficients.values, value.isFinite = false) → ofJsonText? text = none) ∧
      ∀ settings actions, ((Form.empty settings).after actions).submit = .ok coefficients →
        ofJsonText? text = some coefficients := by
  refine ⟨?_, written_toJson coefficients, ?_⟩
  · rw [text_toJson]
    congr 3
    apply List.map_congr_left
    intro value _
    rw [valueToJson]
    split
    · rfl
    · rfl
  · intro text hwritten
    rw [ofJsonText?_of_written hwritten]
    refine ⟨fun hfinite => if_pos hfinite, ?_, ?_⟩
    · rintro ⟨value, hvalue, hinfinite⟩
      apply if_neg
      intro hfinite
      rw [hfinite value hvalue] at hinfinite
      cases hinfinite
    · exact fun settings actions hsubmit => if_pos (isFinite_of_submit_after_empty hsubmit)

/-- The smallest double below zero, the largest one and a negative zero that was submitted are read
back, and nothing is where a NaN stands among them. Integers are written with a point unless they
are large, and a double halfway between two decimals as the even one. -/
theorem ofJsonText?_of_ends_and_nan :
    let smallest : Binary64 := ⟨true, 1, by decide⟩
    let largest : Binary64 := ⟨false, 0x7FEFFFFFFFFFFFFF, by decide⟩
    let ends : Coefficients := ⟨#[smallest, largest]⟩
    let broken : Coefficients := ⟨#[smallest, .nan false, largest]⟩
    let submitted : Coefficients := ⟨#[.zero true, .zero false]⟩
    let integers : Coefficients := ⟨#[.ofUInt32 4, .ofUInt32 3, .ofUInt32 2, .ofUInt32 1]⟩
    let others : Coefficients := ⟨#[⟨false, 0x4310000000000001, by decide⟩,
      ⟨false, 0x4341C37937E08000, by decide⟩, ⟨true, 0x3EB421F5F40D8376, by decide⟩]⟩
    let form := (Form.empty ⟨⟨1, 4⟩, false, false⟩).after
      [.typeDegree "1", .go, .enter ⟨0⟩ "-0"]
    ends.toJson.text = "[-5e-324,1.7976931348623157e308]" ∧
      ofJsonText? "[-5e-324,1.7976931348623157e308]" = some ends ∧
      broken.toJson.text = "[-5e-324,null,1.7976931348623157e308]" ∧
      ofJsonText? "[-5e-324,null,1.7976931348623157e308]" = none ∧
      form.submit = .ok submitted ∧ submitted.toJson.text = "[-0.0,0.0]" ∧
      ofJsonText? "[-0.0,0.0]" = some submitted ∧
      integers.toJson.text = "[4.0,3.0,2.0,1.0]" ∧
      ofJsonText? "[4.0,3.0,2.0,1.0]" = some integers ∧
      others.toJson.text = "[1125899906842624.2,1e16,-1.2e-6]" ∧
      ofJsonText? "[1125899906842624.2,1e16,-1.2e-6]" = some others := by
  intro smallest largest ends broken submitted integers others form
  have hsubmit : form.submit = .ok submitted := by decide +kernel
  have hends : ends.toJson.text = "[-5e-324,1.7976931348623157e308]" := by decide +kernel
  have hbroken : broken.toJson.text = "[-5e-324,null,1.7976931348623157e308]" := by
    decide +kernel
  have hsubmitted : submitted.toJson.text = "[-0.0,0.0]" := by decide +kernel
  have hintegers : integers.toJson.text = "[4.0,3.0,2.0,1.0]" := by decide +kernel
  have hothers : others.toJson.text = "[1125899906842624.2,1e16,-1.2e-6]" := by decide +kernel
  obtain ⟨-, hendsWritten, hendsRead⟩ := ofJsonText?_of_finite_or_not ends
  obtain ⟨-, hbrokenWritten, hbrokenRead⟩ := ofJsonText?_of_finite_or_not broken
  obtain ⟨-, hsubmittedWritten, hsubmittedRead⟩ := ofJsonText?_of_finite_or_not submitted
  obtain ⟨-, hintegersWritten, hintegersRead⟩ := ofJsonText?_of_finite_or_not integers
  obtain ⟨-, hothersWritten, hothersRead⟩ := ofJsonText?_of_finite_or_not others
  rw [hends] at hendsWritten
  rw [hbroken] at hbrokenWritten
  rw [hsubmitted] at hsubmittedWritten
  rw [hintegers] at hintegersWritten
  rw [hothers] at hothersWritten
  refine ⟨hends, ?_, hbroken, ?_, hsubmit, hsubmitted, ?_, hintegers, ?_, hothers, ?_⟩
  · exact (hendsRead _ hendsWritten).1 (by decide)
  · exact (hbrokenRead _ hbrokenWritten).2.1 ⟨.nan false, by simp [broken], rfl⟩
  · exact (hsubmittedRead _ hsubmittedWritten).2.2 _ _ hsubmit
  · exact (hintegersRead _ hintegersWritten).1 (by decide +kernel)
  · exact (hothersRead _ hothersWritten).1 (by decide +kernel)

end CoefficientForm.Coefficients
