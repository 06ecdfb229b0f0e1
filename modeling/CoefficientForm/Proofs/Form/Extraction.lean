-- SUMMARY: What is read off any slots, in any order, with repeats and with unused fields.
import CoefficientForm.Proofs.Form.Slots

/-!
# Reading coefficients off any slots

A slot yields the coefficient entered in its field, or fails for one reason: no field, no
coefficient, or no place in the degree. When every slot yields one, the coefficients read off are
settled by which slots there are, so their order, repeats and fields that no slot names do not
matter. Otherwise the order does matter, because the first slot that fails says why.
-/

namespace CoefficientForm.Coefficients

/-- Whether a slot has a field whose entry denotes the value, at an exponent within the degree. -/
structure Yields (degree : Degree) (field? : FieldName → Option Field) (name : FieldName)
    (value : Binary64) : Prop where
  exists_field : ∃ field, field? name = some field ∧ coefficientOf field.entry = .ok value
  exponent_le : name.exponent ≤ degree.value

/-- Why a slot yields nothing. The field comes first, then its entry, then the exponent. -/
inductive Fails (degree : Degree) (field? : FieldName → Option Field) (name : FieldName) :
    SubmissionError → Prop
  | noField : field? name = none → Fails degree field? name (.noField name)
  | invalidEntry {field : Field} {cause : InvalidEntry} : field? name = some field →
      coefficientOf field.entry = .error cause →
      Fails degree field? name (.invalidEntry name cause)
  | beyondDegree {field : Field} {value : Binary64} : field? name = some field →
      coefficientOf field.entry = .ok value → degree.value < name.exponent →
      Fails degree field? name (.beyondDegree name degree)

/-- Whether coefficients are those for the degree that have at each slot what it yields, and zero
at every other exponent. -/
structure ReadOff (degree : Degree) (slots : List FieldName) (field? : FieldName → Option Field)
    (coefficients : Coefficients) : Prop where
  size_eq : coefficients.values.size = degree.value.toNat + 1
  listed : ∀ name ∈ slots, ∃ value, Yields degree field? name value ∧
    coefficients.get? name.exponent = some value
  unlisted : ∀ exponent ≤ degree.value, (∀ name ∈ slots, name.exponent ≠ exponent) →
    coefficients.get? exponent = some (.zero false)

variable {degree : Degree} {slots others : List FieldName}
  {field? otherField? : FieldName → Option Field} {name : FieldName} {coefficients : Coefficients}

/-! ## One slot -/

theorem yields_iff {value : Binary64} :
    Yields degree field? name value ↔ slotValue degree field? name = .ok value := by
  rw [slotValue_eq_ok_iff]
  constructor
  · rintro ⟨⟨field, hfield, hvalue⟩, hle⟩
    exact ⟨field, hfield, hvalue, hle⟩
  · rintro ⟨field, hfield, hvalue, hle⟩
    exact ⟨⟨field, hfield, hvalue⟩, hle⟩

theorem Yields.unique {value other : Binary64} (h : Yields degree field? name value)
    (hother : Yields degree field? name other) : value = other :=
  Except.ok.inj ((yields_iff.1 h).symm.trans (yields_iff.1 hother))

theorem Fails.slotValue_eq {e : SubmissionError} (h : Fails degree field? name e) :
    slotValue degree field? name = .error e := by
  cases h with
  | noField hfield => simp only [slotValue, hfield]
  | invalidEntry hfield hcause => simp only [slotValue, hfield, hcause]
  | beyondDegree hfield hvalue hlt =>
      simp only [slotValue, hfield, hvalue, if_neg (UInt32.not_le.2 hlt)]

theorem fails_of_slotValue_eq {e : SubmissionError} (h : slotValue degree field? name = .error e) :
    Fails degree field? name e := by
  rw [slotValue] at h
  cases hfield : field? name with
  | none =>
      rw [hfield] at h
      cases h
      exact .noField hfield
  | some field =>
      rw [hfield] at h
      cases hvalue : coefficientOf field.entry with
      | error cause =>
          simp only [hvalue] at h
          cases h
          exact .invalidEntry hfield hvalue
      | ok value =>
          simp only [hvalue] at h
          split at h
          · cases h
          · rename_i hle
            cases h
            exact .beyondDegree hfield hvalue (UInt32.not_le.1 hle)

theorem slotError?_eq_some_iff {e : SubmissionError} :
    slotError? degree field? name = some e ↔ Fails degree field? name e := by
  have hvalue : slotError? degree field? name = some e ↔
      slotValue degree field? name = .error e := by
    rw [slotError?]
    cases slotValue degree field? name <;> simp
  exact hvalue.trans ⟨fails_of_slotValue_eq, Fails.slotValue_eq⟩

theorem slotError?_eq_none_iff_yields :
    slotError? degree field? name = none ↔ ∃ value, Yields degree field? name value := by
  simp only [slotError?_eq_none_iff, yields_iff]

/-! ## All slots -/

theorem readOff_of_ofSlots (h : ofSlots degree slots field? = .ok coefficients) :
    ReadOff degree slots field? coefficients := by
  obtain ⟨hsize, hplaced, hkept⟩ := placed_of_ofSlots h
  refine ⟨?_, ?_, ?_⟩
  · rw [hsize, Array.size_replicate, Degree.termCount]
  · intro name hname
    obtain ⟨value, hvalue, hget⟩ := hplaced name hname
    exact ⟨value, yields_iff.2 hvalue, hget⟩
  · intro exponent hle hunlisted
    have hother : ∀ name ∈ slots, name.exponent.toNat ≠ exponent.toNat :=
      fun name hname heq => hunlisted name hname (UInt32.toNat_inj.1 heq)
    rw [get?, hkept exponent.toNat hother, Array.getElem?_replicate,
      if_pos (Degree.toNat_lt_termCount_iff.2 hle)]

theorem ReadOff.unique {other : Coefficients} (h : ReadOff degree slots field? coefficients)
    (hother : ReadOff degree slots field? other) : coefficients = other := by
  apply ext_of_get? h.size_eq hother.size_eq
  intro exponent hle
  by_cases hlisted : ∃ name ∈ slots, name.exponent = exponent
  · obtain ⟨name, hname, rfl⟩ := hlisted
    obtain ⟨value, hvalue, hget⟩ := h.listed name hname
    obtain ⟨otherValue, hotherValue, hotherGet⟩ := hother.listed name hname
    rw [hget, hotherGet, hvalue.unique hotherValue]
  · have hunlisted : ∀ name ∈ slots, name.exponent ≠ exponent :=
      fun name hname heq => hlisted ⟨name, hname, heq⟩
    rw [h.unlisted exponent hle hunlisted, hother.unlisted exponent hle hunlisted]

theorem exists_ofSlots_iff_yields :
    (∃ coefficients, ofSlots degree slots field? = .ok coefficients) ↔
      ∀ name ∈ slots, ∃ value, Yields degree field? name value := by
  simp only [exists_ofSlots_eq_ok_iff, yields_iff]

theorem ofSlots_eq_ok_iff :
    ofSlots degree slots field? = .ok coefficients ↔
      ReadOff degree slots field? coefficients := by
  refine ⟨readOff_of_ofSlots, ?_⟩
  intro h
  have hyields : ∀ name ∈ slots, ∃ value, Yields degree field? name value := by
    intro name hname
    obtain ⟨value, hvalue, -⟩ := h.listed name hname
    exact ⟨value, hvalue⟩
  obtain ⟨other, hother⟩ := exists_ofSlots_iff_yields.2 hyields
  rw [hother, (readOff_of_ofSlots hother).unique h]

theorem ofSlots_eq_error_iff_fails {e : SubmissionError} :
    ofSlots degree slots field? = .error e ↔
      ∃ before name after, slots = before ++ name :: after ∧
        (∀ earlier ∈ before, ∃ value, Yields degree field? earlier value) ∧
        Fails degree field? name e := by
  rw [ofSlots_eq_error_iff, List.findSome?_eq_some_iff]
  simp only [slotError?_eq_some_iff, slotError?_eq_none_iff_yields]
  tauto

theorem Yields.congr {value : Binary64} (h : Yields degree field? name value)
    (heq : otherField? name = field? name) : Yields degree otherField? name value :=
  ⟨heq ▸ h.exists_field, h.exponent_le⟩

/-- Only which slots there are counts, and the fields that they name. -/
theorem ReadOff.congr (h : ReadOff degree slots field? coefficients)
    (hslots : ∀ name, name ∈ others ↔ name ∈ slots)
    (hfields : ∀ name ∈ slots, otherField? name = field? name) :
    ReadOff degree others otherField? coefficients := by
  refine ⟨h.size_eq, ?_, ?_⟩
  · intro name hname
    have hmem := (hslots name).1 hname
    obtain ⟨value, hvalue, hget⟩ := h.listed name hmem
    exact ⟨value, hvalue.congr (hfields name hmem), hget⟩
  · intro exponent hle hunlisted
    exact h.unlisted exponent hle fun name hname => hunlisted name ((hslots name).2 hname)

/-- What is read off any slots: the coefficients are those described, they are there exactly when
every slot yields a value, and otherwise the first slot that fails says why. Neither the order of
the slots, nor a slot that comes again, nor a field that no slot names makes a difference to the
coefficients. -/
theorem ofSlots_any_slots (degree : Degree) (slots : List FieldName)
    (field? : FieldName → Option Field) :
    ((∃ coefficients, ofSlots degree slots field? = .ok coefficients) ↔
      ∀ name ∈ slots, ∃ value, Yields degree field? name value) ∧
    (∀ coefficients, ofSlots degree slots field? = .ok coefficients ↔
      ReadOff degree slots field? coefficients) ∧
    (∀ e, ofSlots degree slots field? = .error e ↔
      ∃ before name after, slots = before ++ name :: after ∧
        (∀ earlier ∈ before, ∃ value, Yields degree field? earlier value) ∧
        Fails degree field? name e) ∧
    ∀ (others : List FieldName) (otherField? : FieldName → Option Field),
      (∀ name, name ∈ others ↔ name ∈ slots) →
      (∀ name ∈ slots, otherField? name = field? name) →
      ∀ coefficients, ofSlots degree others otherField? = .ok coefficients ↔
        ofSlots degree slots field? = .ok coefficients := by
  refine ⟨exists_ofSlots_iff_yields, fun _ => ofSlots_eq_ok_iff,
    fun _ => ofSlots_eq_error_iff_fails, ?_⟩
  intro others otherField? hslots hfields coefficients
  rw [ofSlots_eq_ok_iff, ofSlots_eq_ok_iff]
  constructor
  · intro h
    apply h.congr fun name => (hslots name).symm
    exact fun name hname => (hfields name ((hslots name).1 hname)).symm
  · intro h
    exact h.congr hslots hfields

/-- Slots in another order, one of them twice, beside a field that no slot names. -/
theorem ofSlots_of_reordered_slots :
    let entered (entries : List (UInt32 × String)) (name : FieldName) : Option Field :=
      (entries.lookup name.exponent).map (Field.ofName name).withEntry
    let coefficients : Coefficients :=
      ⟨#[(Decimal.mk true 3 0).toBinary64, .zero false, (Decimal.mk false 15 (-1)).toBinary64]⟩
    ofSlots ⟨2⟩ [⟨2⟩, ⟨0⟩] (entered [(0, "-3"), (2, " 1.5 ")]) = .ok coefficients ∧
      ofSlots ⟨2⟩ [⟨0⟩, ⟨2⟩, ⟨0⟩] (entered [(0, "-3"), (1, "?"), (2, " 1.5 ")]) =
        .ok coefficients := by
  intro entered coefficients
  have hread : ofSlots ⟨2⟩ [⟨2⟩, ⟨0⟩] (entered [(0, "-3"), (2, " 1.5 ")]) = .ok coefficients := by
    decide +kernel
  have hslots (name : FieldName) : name ∈ [⟨0⟩, ⟨2⟩, ⟨0⟩] ↔ name ∈ [(⟨2⟩ : FieldName), ⟨0⟩] := by
    simp only [List.mem_cons, List.not_mem_nil, or_false]
    rw [or_left_comm, or_self]
  have hfields : ∀ name ∈ [(⟨2⟩ : FieldName), ⟨0⟩],
      entered [(0, "-3"), (1, "?"), (2, " 1.5 ")] name = entered [(0, "-3"), (2, " 1.5 ")] name := by
    intro name hname
    simp only [List.mem_cons, List.not_mem_nil, or_false] at hname
    rcases hname with rfl | rfl <;> rfl
  exact ⟨hread, ((ofSlots_any_slots ⟨2⟩ [⟨2⟩, ⟨0⟩] _).2.2.2 _ _ hslots hfields _).2 hread⟩

end CoefficientForm.Coefficients
