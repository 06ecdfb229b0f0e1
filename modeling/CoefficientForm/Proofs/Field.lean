-- SUMMARY: The fields made for names, and the texts of names and labels.
import CoefficientForm.Field.Basic
import CoefficientForm.Proofs.Exponent
import CoefficientForm.Proofs.Text.Natural

/-!
# Fields of names

The field made for a name carries that name and shows its exponent without any correction,
whatever is entered. Different names have different texts and different labels.
-/

namespace CoefficientForm

/-! ## Texts of names and labels -/

theorem FieldName.toNat_exponent_inj {a b : FieldName} :
    a.exponent.toNat = b.exponent.toNat ↔ a = b := by
  constructor
  · intro h
    exact congrArg FieldName.mk (UInt32.toNat_inj.1 h)
  · rintro rfl
    rfl

theorem FieldName.toList_text (name : FieldName) :
    name.text.toList = 'x' :: '^' :: Nat.toDigits 10 name.exponent.toNat := by
  simp only [FieldName.text, String.toList_append, Nat.toString_eq_repr, Nat.toList_repr]
  rfl

theorem FieldName.ofText_text (name : FieldName) : FieldName.ofText name.text = .ok name := by
  rw [FieldName.ofText, FieldName.toList_text, FieldName.ofChars?, Text.ofNatural?_toDigits]
  rfl

theorem Label.toList_text (label : Label) :
    label.text.toList =
      if label.exponent = 1 then ['x']
      else 'x' :: '^' :: '{' :: (Nat.toDigits 10 label.exponent.toNat ++ ['}']) := by
  unfold Label.text
  split
  · rfl
  · simp only [String.toList_append, Nat.toString_eq_repr, Nat.toList_repr, List.append_assoc]
    rfl

theorem Label.text_injective : Function.Injective Label.text := by
  intro a b h
  have hlist := congrArg String.toList h
  rw [Label.toList_text, Label.toList_text] at hlist
  have hexponent : a.exponent = b.exponent := by
    split at hlist <;> split at hlist
    · rename_i ha hb
      rw [ha, hb]
    · simp at hlist
    · simp at hlist
    · simp only [List.cons.injEq, true_and, List.append_cancel_right_eq] at hlist
      exact UInt32.toNat_inj.1 (Text.toDigits_injective hlist)
  exact congrArg Label.mk hexponent

namespace Field

/-! ## The field of a name -/

/-- Whether a field is one for that name: it carries the name, and its exponent is the one of the
name and needed no correction. -/
structure IsFor (field : Field) (name : FieldName) : Prop where
  name_eq : field.name = some name
  exponent_eq : field.exponent = .ofUInt32 name.exponent
  shown_eq : field.shown = ⟨name.exponent, []⟩

theorem isFor_ofName (name : FieldName) : (ofName name).IsFor name :=
  ⟨rfl, rfl, Exponent.shown_ofUInt32 name.exponent⟩

theorem IsFor.withEntry {field : Field} {name : FieldName} (h : field.IsFor name)
    (entry : String) : (field.withEntry entry).IsFor name :=
  ⟨h.name_eq, h.exponent_eq, h.shown_eq⟩

theorem IsFor.label_eq {field : Field} {name : FieldName} (h : field.IsFor name) :
    field.label = if name.exponent = 0 then none else some ⟨name.exponent⟩ := by
  rw [label, h.shown_eq]

/-- The label beside a field tells it from the fields of all other names. -/
theorem IsFor.name_eq_of_labelText_eq {field other : Field} {name otherName : FieldName}
    (h : field.IsFor name) (hother : other.IsFor otherName)
    (htext : field.label.map Label.text = other.label.map Label.text) : name = otherName := by
  have hlabel : field.label = other.label :=
    Option.map_injective Label.text_injective htext
  rw [h.label_eq, hother.label_eq] at hlabel
  have hexponent : name.exponent = otherName.exponent := by
    split at hlabel <;> split at hlabel <;> simp_all
  exact FieldName.toNat_exponent_inj.1 (congrArg UInt32.toNat hexponent)

end Field

end CoefficientForm
