-- SUMMARY: The walk along the slots, by what each slot has to say on its own.
import CoefficientForm.Form.Slots
import CoefficientForm.Proofs.Degree
import CoefficientForm.Proofs.Field

/-!
# Walking the slots

What a slot contributes does not depend on the slots before it. So the walk goes through when every
slot contributes a value, each value then stands at the exponent of its slot, and otherwise the
walk ends with what the first slot without a value says.
-/

namespace CoefficientForm.Coefficients

variable {degree : Degree} {field? : FieldName → Option Field}

/-- What a slot contributes: the value of its entry, or why there is none. -/
def slotValue (degree : Degree) (field? : FieldName → Option Field) (name : FieldName) :
    Except SubmissionError Binary64 :=
  match field? name with
  | none => .error (.noField name)
  | some field =>
    match coefficientOf field.entry with
    | .error cause => .error (.invalidEntry name cause)
    | .ok value =>
      if name.exponent ≤ degree.value then .ok value else .error (.beyondDegree name degree)

/-! ## One slot -/

theorem slotValue_eq_ok_iff {name : FieldName} {value : Binary64} :
    slotValue degree field? name = .ok value ↔
      ∃ field, field? name = some field ∧ coefficientOf field.entry = .ok value ∧
        name.exponent ≤ degree.value := by
  rw [slotValue]
  cases field? name with
  | none => simp
  | some field =>
      cases hvalue : coefficientOf field.entry with
      | error cause => simp [hvalue]
      | ok read =>
          by_cases hle : name.exponent ≤ degree.value <;> simp [hle, hvalue]

/-- Why a slot contributes nothing, if it does not. -/
def slotError? (degree : Degree) (field? : FieldName → Option Field) (name : FieldName) :
    Option SubmissionError :=
  match slotValue degree field? name with
  | .error e => some e
  | .ok _ => none

theorem slotError?_eq_none_iff {name : FieldName} :
    slotError? degree field? name = none ↔ ∃ value, slotValue degree field? name = .ok value := by
  rw [slotError?]
  cases slotValue degree field? name <;> simp

/-- On an array with a place for every exponent, the value of a slot is put at its exponent. -/
theorem placeEntry_eq {values : Array Binary64} (hsize : values.size = degree.termCount)
    (name : FieldName) :
    placeEntry degree field? values name =
      (slotValue degree field? name).map (values.setIfInBounds name.exponent.toNat) := by
  rw [placeEntry, slotValue]
  cases field? name with
  | none => rfl
  | some field =>
      cases hvalue : coefficientOf field.entry with
      | error cause => simp only [hvalue, Except.map]
      | ok value =>
          simp only [hvalue]
          have hlt : name.exponent.toNat < values.size ↔ name.exponent ≤ degree.value := by
            rw [hsize, Degree.toNat_lt_termCount_iff]
          by_cases hle : name.exponent ≤ degree.value
          · simp only [hlt, hle, if_true, dite_true, Except.map]
            rw [Array.setIfInBounds, dif_pos (hlt.2 hle)]
          · simp only [hlt, hle, if_false, dite_false, Except.map]

/-! ## The walk -/

/-- Whether an array holds, at the exponent of each slot, the value that the slot contributes, and
elsewhere what stood there before. -/
structure Placed (degree : Degree) (field? : FieldName → Option Field) (slots : List FieldName)
    (before after : Array Binary64) : Prop where
  size_eq : after.size = before.size
  placed : ∀ name ∈ slots, ∃ value, slotValue degree field? name = .ok value ∧
    after[name.exponent.toNat]? = some value
  kept : ∀ index, (∀ name ∈ slots, name.exponent.toNat ≠ index) → after[index]? = before[index]?

theorem placed_of_foldlM {slots : List FieldName} {before after : Array Binary64}
    (hsize : before.size = degree.termCount)
    (h : slots.foldlM (placeEntry degree field?) before = .ok after) :
    Placed degree field? slots before after := by
  induction slots generalizing before with
  | nil =>
      cases h
      exact ⟨rfl, by simp, fun _ _ => rfl⟩
  | cons name rest ih =>
      rw [List.foldlM_cons, placeEntry_eq hsize] at h
      cases hslot : slotValue degree field? name with
      | error e =>
          rw [hslot] at h
          cases h
      | ok value =>
          rw [hslot] at h
          obtain ⟨hsizeRest, hplaced, hkept⟩ := ih (by rw [Array.size_setIfInBounds, hsize]) h
          have hlt : name.exponent.toNat < before.size := by
            obtain ⟨_, -, -, hle⟩ := slotValue_eq_ok_iff.1 hslot
            rw [hsize, Degree.toNat_lt_termCount_iff]
            exact hle
          refine ⟨by rw [hsizeRest, Array.size_setIfInBounds], ?_, ?_⟩
          · intro slot hmem
            -- A slot that comes again contributes the same value again.
            by_cases hagain : slot ∈ rest
            · exact hplaced slot hagain
            · have hfirst : slot = name := (List.mem_cons.1 hmem).resolve_right hagain
              subst hfirst
              refine ⟨value, hslot, ?_⟩
              rw [hkept slot.exponent.toNat, Array.getElem?_setIfInBounds_self_of_lt hlt]
              intro other hother heq
              exact hagain (FieldName.toNat_exponent_inj.1 heq ▸ hother)
          · intro index hindex
            rw [hkept index fun slot hslot => hindex slot (List.mem_cons_of_mem _ hslot)]
            exact Array.getElem?_setIfInBounds_ne (hindex name List.mem_cons_self)

theorem foldlM_eq_error_iff {slots : List FieldName} {values : Array Binary64}
    {e : SubmissionError} (hsize : values.size = degree.termCount) :
    slots.foldlM (placeEntry degree field?) values = .error e ↔
      slots.findSome? (slotError? degree field?) = some e := by
  induction slots generalizing values with
  | nil =>
      constructor <;> intro h <;> cases h
  | cons name rest ih =>
      rw [List.foldlM_cons, placeEntry_eq hsize, List.findSome?_cons, slotError?]
      cases slotValue degree field? name with
      | error cause =>
          constructor
          · intro h
            cases h
            rfl
          · intro h
            cases h
            rfl
      | ok value => exact ih (by rw [Array.size_setIfInBounds, hsize])

/-! ## The coefficients read off the slots -/

/-- Coefficients for a degree are settled by the one at each of its exponents. -/
theorem ext_of_get? {coefficients other : Coefficients}
    (hsize : coefficients.values.size = degree.termCount)
    (hother : other.values.size = degree.termCount)
    (hget : ∀ exponent, exponent ≤ degree.value → coefficients.get? exponent = other.get? exponent) :
    coefficients = other := by
  have hvalues : coefficients.values = other.values := by
    apply Array.ext_getElem?
    intro index
    by_cases hindex : index < degree.termCount
    · have hnat : (UInt32.ofNat index).toNat = index := Degree.toNat_ofNat_of_lt_termCount hindex
      have hat := hget (UInt32.ofNat index) (Degree.toNat_lt_termCount_iff.1 (hnat.symm ▸ hindex))
      rwa [get?, get?, hnat] at hat
    · rw [Array.getElem?_eq_none (hsize ▸ Nat.not_lt.1 hindex),
        Array.getElem?_eq_none (hother ▸ Nat.not_lt.1 hindex)]
  exact congrArg Coefficients.mk hvalues

variable {slots : List FieldName}

/-- Each slot's value stands at its exponent, and zero at the exponents of no slot. -/
theorem placed_of_ofSlots {coefficients : Coefficients}
    (h : ofSlots degree slots field? = .ok coefficients) :
    Placed degree field? slots (Array.replicate degree.termCount (.zero false))
      coefficients.values := by
  rw [ofSlots] at h
  cases hwalk : slots.foldlM (placeEntry degree field?)
      (Array.replicate degree.termCount (.zero false)) with
  | error e =>
      rw [hwalk] at h
      cases h
  | ok values =>
      rw [hwalk] at h
      cases h
      exact placed_of_foldlM Array.size_replicate hwalk

/-- The first slot that contributes nothing decides the refusal. -/
theorem ofSlots_eq_error_iff {e : SubmissionError} :
    ofSlots degree slots field? = .error e ↔
      slots.findSome? (slotError? degree field?) = some e := by
  have hsize : (Array.replicate degree.termCount (Binary64.zero false)).size = degree.termCount :=
    Array.size_replicate
  rw [← foldlM_eq_error_iff hsize, ofSlots]
  cases slots.foldlM (placeEntry degree field?)
      (Array.replicate degree.termCount (.zero false)) with
  | error cause => simp [Except.map]
  | ok values => simp [Except.map]

theorem exists_ofSlots_eq_ok_iff :
    (∃ coefficients, ofSlots degree slots field? = .ok coefficients) ↔
      ∀ name ∈ slots, ∃ value, slotValue degree field? name = .ok value := by
  constructor
  · rintro ⟨coefficients, h⟩ name hname
    obtain ⟨value, hvalue, -⟩ := (placed_of_ofSlots h).placed name hname
    exact ⟨value, hvalue⟩
  · intro hslots
    cases hwalk : ofSlots degree slots field? with
    | ok coefficients => exact ⟨coefficients, rfl⟩
    | error e =>
        obtain ⟨name, hname, herror⟩ :=
          List.exists_of_findSome?_eq_some (ofSlots_eq_error_iff.1 hwalk)
        rw [slotError?_eq_none_iff.2 (hslots name hname)] at herror
        cases herror

end CoefficientForm.Coefficients
