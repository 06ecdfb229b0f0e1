-- SUMMARY: The query of a polynomial can be taken apart and read back.
import CoefficientForm.Coefficients.Basic
import CoefficientForm.Json.Literal
import CoefficientForm.Proofs.Binary64.Text
import CoefficientForm.Proofs.Field

/-!
# Reading a query back

The names and values of a query hold neither of its separators. So the query falls apart into its
parameters, each parameter into its name and its value, and every coefficient can be read back from
the value that stands at its exponent.
-/

namespace CoefficientForm.Coefficients

/-! ## Percent escapes -/

/-- The text with a `%` and two hexadecimal digits replaced by the ASCII character of that code. A
`%` in front of anything else is refused. -/
def percentDecoded? : List Char → Option (List Char)
  | [] => some []
  | '%' :: high :: low :: rest => do
      let code := (← Json.hexDigit? high) * 16 + (← Json.hexDigit? low)
      if code < 128 then (percentDecoded? rest).map (Char.ofNat code :: ·) else none
  | '%' :: _ => none
  | c :: rest => (percentDecoded? rest).map (c :: ·)

theorem percentDecoded?_cons {c : Char} (h : c ≠ '%') (rest : List Char) :
    percentDecoded? (c :: rest) = (percentDecoded? rest).map (c :: ·) := by
  rw [percentDecoded?]
  · rintro _ _ _ rfl
    exact absurd rfl h
  · rintro rfl
    exact absurd rfl h

/-- A text without a `%` holds no escapes. -/
theorem percentDecoded?_of_notMem {cs : List Char} (h : '%' ∉ cs) : percentDecoded? cs = some cs := by
  induction cs with
  | nil => rfl
  | cons c rest ih =>
      obtain ⟨hc, hrest⟩ := List.ne_and_not_mem_of_not_mem_cons h
      rw [percentDecoded?_cons hc.symm, ih hrest, Option.map_some]

theorem percentDecoded?_caret (rest : List Char) :
    percentDecoded? ('%' :: '5' :: 'E' :: rest) = (percentDecoded? rest).map ('^' :: ·) := rfl

/-! ## Names and values -/

theorem toList_name (exponent : Nat) :
    (s!"x%5E{exponent}").toList = 'x' :: '%' :: '5' :: 'E' :: Nat.toDigits 10 exponent := by
  simp only [String.toList_append, Nat.toString_eq_repr, Nat.toList_repr]
  rfl

/-- The escaped name of a coefficient stands for the name of its field. -/
theorem percentDecoded?_name (exponent : UInt32) :
    percentDecoded? (s!"x%5E{exponent.toNat}").toList = some (FieldName.mk exponent).text.toList := by
  have hdigits : '%' ∉ Nat.toDigits 10 exponent.toNat := by
    intro h
    exact absurd (Text.isDigit_of_mem_toDigits h) (by decide)
  rw [toList_name, FieldName.toList_text, percentDecoded?_cons (by decide), percentDecoded?_caret,
    percentDecoded?_of_notMem hdigits]
  rfl

/-- Whether a character stands for itself in a query and is none of its separators: an ASCII letter
or digit, `%`, `.` or `-`. -/
def isPlain (c : Char) : Bool :=
  c.isAlphanum || c == '%' || c == '.' || c == '-'

theorem isPlain_of_mem_toDigits {n : Nat} {c : Char} (h : c ∈ Nat.toDigits 10 n) :
    isPlain c = true := by
  simp [isPlain, Char.isAlphanum, Text.isDigit_of_mem_toDigits h]

theorem isPlain_of_mem_text {value : Binary64} {c : Char} (h : c ∈ value.text.toList) :
    isPlain c = true := by
  rcases Binary64.mem_toList_text h with halphanum | rfl | rfl
  · simp [isPlain, halphanum]
  · rfl
  · rfl

theorem isPlain_of_mem_parameters {coefficients : Coefficients} {parameter : String × String}
    (h : parameter ∈ coefficients.parameters) {c : Char}
    (hc : c ∈ parameter.1.toList ∨ c ∈ parameter.2.toList) : isPlain c = true := by
  rcases List.mem_cons.1 h with rfl | hterm
  · rcases hc with hname | hvalue
    · have hdegree : "degree".toList.all isPlain = true := rfl
      exact List.all_eq_true.1 hdegree c hname
    · simp only [Nat.toString_eq_repr, Nat.toList_repr] at hvalue
      exact isPlain_of_mem_toDigits hvalue
  · obtain ⟨⟨value, exponent⟩, -, rfl⟩ := List.mem_map.1 hterm
    rcases hc with hname | hvalue
    · simp only [toList_name, List.mem_cons] at hname
      rcases hname with rfl | rfl | rfl | rfl | hdigit
      · rfl
      · rfl
      · rfl
      · rfl
      · exact isPlain_of_mem_toDigits hdigit
    · exact isPlain_of_mem_text hvalue

/-- No separator stands in a name or in a value. -/
theorem notMem_parameters {coefficients : Coefficients} {parameter : String × String}
    (h : parameter ∈ coefficients.parameters) (separator : Char)
    (hseparator : isPlain separator = false) :
    separator ∉ parameter.1.toList ∧ separator ∉ parameter.2.toList := by
  constructor
  · intro hname
    simp [isPlain_of_mem_parameters h (.inl hname)] at hseparator
  · intro hvalue
    simp [isPlain_of_mem_parameters h (.inr hvalue)] at hseparator

/-! ## The parameters of a query -/

/-- A parameter as it stands in the query. -/
def parameterChars (parameter : String × String) : List Char :=
  parameter.1.toList ++ '=' :: parameter.2.toList

theorem toList_query (coefficients : Coefficients) :
    coefficients.query.toList =
      ['&'].intercalate (coefficients.parameters.map parameterChars) := by
  rw [query, String.toList_intercalate, List.map_map]
  congr 1
  apply List.map_congr_left
  intro parameter _
  simp only [Function.comp_apply, parameterChars, String.toList_append, List.append_assoc]
  rfl

theorem splitOn_query (coefficients : Coefficients) :
    coefficients.query.toList.splitOn '&' = coefficients.parameters.map parameterChars := by
  rw [toList_query]
  apply List.splitOn_intercalate
  · intro chars hchars
    obtain ⟨parameter, hparameter, rfl⟩ := List.mem_map.1 hchars
    obtain ⟨hname, hvalue⟩ := notMem_parameters hparameter '&' rfl
    simp [parameterChars, hname, hvalue]
  · simp [parameters]

theorem count_parameterChars {coefficients : Coefficients} {parameter : String × String}
    (h : parameter ∈ coefficients.parameters) : (parameterChars parameter).count '=' = 1 := by
  obtain ⟨hname, hvalue⟩ := notMem_parameters h '=' rfl
  simp [parameterChars, List.count_eq_zero.2 hname, List.count_eq_zero.2 hvalue]

theorem length_parameters (coefficients : Coefficients) :
    coefficients.parameters.length = coefficients.values.size + 1 := by
  simp [parameters]

theorem getElem?_parameters (coefficients : Coefficients) {exponent : Nat}
    (h : exponent < coefficients.values.size) :
    coefficients.parameters[exponent + 1]? =
      some (s!"x%5E{exponent}", coefficients.values[exponent].text) := by
  simp [parameters, h]

/-- The degree is the number of coefficients after the constant term, if it has 32 bits. -/
theorem toNat_degree?_getD {coefficients : Coefficients} (h : coefficients.values.size ≤ 2 ^ 32) :
    (coefficients.degree?.getD 0).toNat = coefficients.values.size - 1 := by
  unfold degree?
  split
  · rename_i hempty
    simp [hempty]
  · rw [Option.getD_some, UInt32.toNat_ofNat_of_lt']
    simp only [UInt32.size]
    omega

/-! ## Reading back -/

/-- Whether a parameter states the coefficient of `x^exponent`. Without its escapes its name is the
name of the field for that exponent, and its value denotes the coefficient. -/
def States (parameter : List Char) (exponent : Nat) (coefficient : Binary64) : Prop :=
  ∃ name value, parameter = name ++ '=' :: value ∧
    (∃ field : FieldName, percentDecoded? name = some field.text.toList ∧
      FieldName.ofText field.text = .ok field ∧ field.exponent.toNat = exponent) ∧
    ∃ read, Binary64.ofChars? value = some read ∧ coefficient.SameUpToNaN read

theorem states_parameterChars {exponent : Nat} (h : exponent < 2 ^ 32) (coefficient : Binary64) :
    States (parameterChars (s!"x%5E{exponent}", coefficient.text)) exponent coefficient := by
  have hexponent : (UInt32.ofNat exponent).toNat = exponent := UInt32.toNat_ofNat_of_lt' h
  have hname := percentDecoded?_name (UInt32.ofNat exponent)
  rw [hexponent] at hname
  exact ⟨_, _, rfl, ⟨⟨UInt32.ofNat exponent⟩, hname, FieldName.ofText_text _, hexponent⟩,
    Binary64.exists_ofText?_text coefficient⟩

theorem mem_intercalate {separator c : Char} {pieces : List (List Char)}
    (h : c ∈ [separator].intercalate pieces) : c = separator ∨ ∃ piece ∈ pieces, c ∈ piece := by
  induction pieces with
  | nil => simp at h
  | cons piece rest ih =>
      cases rest with
      | nil => exact Or.inr ⟨piece, List.mem_cons_self, by simpa using h⟩
      | cons next rest =>
          simp only [List.intercalate_cons_cons, List.mem_append, List.mem_singleton] at h
          rcases h with (hpiece | hseparator) | hrest
          · exact Or.inr ⟨piece, List.mem_cons_self, hpiece⟩
          · exact Or.inl hseparator
          · refine (ih hrest).imp_right ?_
            rintro ⟨other, hother, hc⟩
            exact ⟨other, List.mem_cons_of_mem _ hother, hc⟩

theorem mem_toList_query {coefficients : Coefficients} {c : Char}
    (h : c ∈ coefficients.query.toList) : isPlain c = true ∨ c = '=' ∨ c = '&' := by
  rw [toList_query] at h
  rcases mem_intercalate h with hamp | ⟨chars, hchars, hc⟩
  · exact Or.inr (Or.inr hamp)
  · obtain ⟨parameter, hparameter, rfl⟩ := List.mem_map.1 hchars
    rcases List.mem_append.1 hc with hname | hrest
    · exact Or.inl (isPlain_of_mem_parameters hparameter (.inl hname))
    · rcases List.mem_cons.1 hrest with heq | hvalue
      · exact Or.inr (Or.inl heq)
      · exact Or.inl (isPlain_of_mem_parameters hparameter (.inr hvalue))

/-- Coefficients that make the same query are the same up to the bits of NaNs. -/
theorem sameUpToNaN_of_query_eq {coefficients other : Coefficients}
    (h : coefficients.query = other.query) :
    List.Forall₂ Binary64.SameUpToNaN coefficients.values.toList other.values.toList := by
  have hparameters : coefficients.parameters.map parameterChars =
      other.parameters.map parameterChars := by
    rw [← splitOn_query, h, splitOn_query]
  have hlength := congrArg List.length hparameters
  simp only [List.length_map, length_parameters, Nat.add_right_cancel_iff] at hlength
  refine List.forall₂_iff_get.2 ⟨by simpa using hlength, ?_⟩
  intro exponent hleft hright
  have hparameter := congrArg (·[exponent + 1]?) hparameters
  simp only [Array.length_toList] at hleft hright
  simp only [List.getElem?_map, getElem?_parameters _ hleft, getElem?_parameters _ hright,
    Option.map_some, Option.some.injEq, parameterChars, List.append_cancel_left_eq,
    List.cons.injEq, true_and] at hparameter
  exact Binary64.sameUpToNaN_of_text_eq (String.toList_inj.1 hparameter)

/-- A query falls apart at `&` into the degree and one parameter for each coefficient, in which the
coefficient can be read back. -/
theorem query_states_coefficients (coefficients : Coefficients)
    (hsize : coefficients.values.size ≤ 2 ^ 32) :
    let parameters := coefficients.query.toList.splitOn '&'
    parameters.length = coefficients.values.size + 1 ∧
    (∀ parameter ∈ parameters, parameter.count '=' = 1) ∧
    parameters[0]? = some s!"degree={coefficients.values.size - 1}".toList ∧
    (∀ (exponent : Nat) (h : exponent < coefficients.values.size),
      ∃ parameter, parameters[exponent + 1]? = some parameter ∧
        States parameter exponent coefficients.values[exponent]) ∧
    (∀ c ∈ coefficients.query.toList, isPlain c = true ∨ c = '=' ∨ c = '&') ∧
    ∀ other : Coefficients, other.query = coefficients.query →
      List.Forall₂ Binary64.SameUpToNaN other.values.toList coefficients.values.toList := by
  intro parameters
  have hparameters : parameters = coefficients.parameters.map parameterChars :=
    splitOn_query coefficients
  refine ⟨?_, ?_, ?_, ?_, ?_, ?_⟩
  · rw [hparameters, List.length_map, length_parameters]
  · intro chars hchars
    rw [hparameters] at hchars
    obtain ⟨parameter, hparameter, rfl⟩ := List.mem_map.1 hchars
    exact count_parameterChars hparameter
  · rw [hparameters]
    simp only [Coefficients.parameters, List.map_cons, List.getElem?_cons_zero, Option.some.injEq,
      parameterChars, toNat_degree?_getD hsize, String.toList_append]
    rfl
  · intro exponent h
    refine ⟨_, ?_, states_parameterChars (h.trans_le hsize) coefficients.values[exponent]⟩
    rw [hparameters, List.getElem?_map, getElem?_parameters coefficients h, Option.map_some]
  · intro c hc
    exact mem_toList_query hc
  · intro other h
    exact sameUpToNaN_of_query_eq h

/-- A negative zero and a NaN can be read back from the query of the two. -/
theorem query_states_negative_zero_and_nan :
    let coefficients : Coefficients := ⟨#[.zero true, .nan true]⟩
    let parameters := coefficients.query.toList.splitOn '&'
    coefficients.values.size ≤ 2 ^ 32 ∧ parameters.length = 3 ∧
      (∃ parameter, parameters[1]? = some parameter ∧ States parameter 0 (.zero true)) ∧
      ∃ parameter, parameters[2]? = some parameter ∧ States parameter 1 (.nan true) := by
  intro coefficients parameters
  have hsize : coefficients.values.size ≤ 2 ^ 32 := by decide
  obtain ⟨hlength, -, -, hstates, -⟩ := query_states_coefficients coefficients hsize
  exact ⟨hsize, hlength, hstates 0 (by decide), hstates 1 (by decide)⟩

end CoefficientForm.Coefficients
