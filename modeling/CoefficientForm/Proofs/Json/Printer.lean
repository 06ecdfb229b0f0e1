-- SUMMARY: What is written for a JSON value is read back as that value.
import CoefficientForm.Proofs.Json.Reader

/-!
# Writing JSON

What is written for a value is a text of it, so it is read back as the same value, numbers apart:
where the point of one falls decides how it is written, and what is read back is what its digits
say. An array is read back from any texts of its items with commas between them.
-/

namespace CoefficientForm.Json

mutual

/-- The value with each number as it is read back from its text. -/
def reread : Json → Json
  | .number value => .number (numberRead value)
  | .array items => .array (rereadItems items)
  | .object members => .object (rereadMembers members)
  | json => json

def rereadItems : List Json → List Json
  | [] => []
  | item :: rest => item.reread :: rereadItems rest

def rereadMembers : List (Option String × Json) → List (Option String × Json)
  | [] => []
  | (name, value) :: rest => (name, value.reread) :: rereadMembers rest

end

@[simp] theorem reread_ofString (s : String) : (ofString s).reread = ofString s := rfl

@[simp] theorem rereadItems_map_ofString (texts : List String) :
    rereadItems (texts.map ofString) = texts.map ofString := by
  induction texts with
  | nil => rfl
  | cons s rest ih => rw [List.map_cons, rereadItems, ih, reread_ofString]

theorem allBlank_nil : AllBlank [] := by
  intro c hc
  cases hc

mutual

theorem written_chars : (json : Json) → Written json.reread json.chars
  | .null => .null
  | .bool true => .boolTrue
  | .bool false => .boolFalse
  | .number value => .number (writtenNumber_numberChars value)
  | .string text => .string (writtenLiteral_literal text)
  | .array [] => .emptyArray allBlank_nil
  | .array (item :: rest) => .array (writtenItems_chars (item :: rest) (List.cons_ne_nil _ _))
  | .object [] => .emptyObject allBlank_nil
  | .object (member :: rest) =>
      .object (writtenMembers_chars (member :: rest) (List.cons_ne_nil _ _))

theorem writtenItems_chars : (items : List Json) → items ≠ [] →
    WrittenItems (rereadItems items) (itemsChars items)
  | [], h => absurd rfl h
  | [item], _ => by
      have h := WrittenItems.last allBlank_nil (written_chars item) allBlank_nil
      rwa [List.append_nil] at h
  | item :: next :: rest, _ => by
      have h := WrittenItems.cons allBlank_nil (written_chars item) allBlank_nil
        (writtenItems_chars (next :: rest) (List.cons_ne_nil _ _))
      rwa [List.append_nil] at h

theorem writtenMembers_chars : (members : List (Option String × Json)) → members ≠ [] →
    WrittenMembers (rereadMembers members) (membersChars members)
  | [], h => absurd rfl h
  | [(name, value)], _ => by
      have h := WrittenMembers.last allBlank_nil (writtenLiteral_literal name) allBlank_nil
        allBlank_nil (written_chars value) allBlank_nil
      show WrittenMembers [(name, value.reread)] (literal name ++ ':' :: value.chars)
      simpa only [List.nil_append, List.append_nil, List.append_assoc, List.cons_append] using h
  | (name, value) :: next :: rest, _ => by
      have h := WrittenMembers.cons allBlank_nil (writtenLiteral_literal name) allBlank_nil
        allBlank_nil (written_chars value) allBlank_nil
        (writtenMembers_chars (next :: rest) (List.cons_ne_nil _ _))
      show WrittenMembers ((name, value.reread) :: rereadMembers (next :: rest))
        (literal name ++ ':' :: value.chars ++ ',' :: membersChars (next :: rest))
      simpa only [List.nil_append, List.append_nil, List.append_assoc, List.cons_append] using h

end

theorem ofText?_text (json : Json) : ofText? json.text = some json.reread := by
  have h := ofChars?_written allBlank_nil json.written_chars allBlank_nil
  rw [List.nil_append, List.append_nil] at h
  rw [ofText?, text, String.toList_ofList, h]

/-! ## Arrays of texts -/

theorem itemsChars_eq_intercalate (items : List Json) :
    itemsChars items = [','].intercalate (items.map chars) := by
  induction items with
  | nil => rfl
  | cons item rest ih =>
      cases rest with
      | nil => simp [itemsChars]
      | cons next rest =>
          rw [itemsChars, ih, List.map_cons, List.map_cons, List.map_cons,
            List.intercalate_cons_cons, List.append_assoc, List.singleton_append]
          exact List.cons_ne_nil _ _

theorem writtenItems_intercalate {items : List Json} {texts : List (List Char)}
    (h : List.Forall₂ Written items texts) (hne : items ≠ []) :
    WrittenItems items ([','].intercalate texts) := by
  induction h with
  | nil => exact absurd rfl hne
  | @cons item cs items texts hitem hrest ih =>
      cases hrest with
      | nil =>
          have hlast := WrittenItems.last allBlank_nil hitem allBlank_nil
          rw [List.intercalate_singleton]
          rwa [List.nil_append, List.append_nil] at hlast
      | cons hnext hafter =>
          have hcons := WrittenItems.cons allBlank_nil hitem allBlank_nil
            (ih (List.cons_ne_nil _ _))
          rw [List.intercalate_cons_cons, List.append_assoc, List.singleton_append]
          rwa [List.nil_append, List.append_nil] at hcons

theorem ofText?_intercalate {items : List Json} {texts : List String}
    (h : List.Forall₂ (fun item text => Written item text.toList) items texts) :
    ofText? ("[" ++ ",".intercalate texts ++ "]") = some (.array items) := by
  have hchars : ("[" ++ ",".intercalate texts ++ "]").toList =
      '[' :: [','].intercalate (texts.map String.toList) ++ [']'] := by
    rw [String.toList_append, String.toList_append, String.toList_intercalate]
    rfl
  have hwritten : Written (.array items)
      ('[' :: [','].intercalate (texts.map String.toList) ++ [']']) := by
    cases h with
    | nil => exact .emptyArray allBlank_nil
    | cons hitem hrest =>
        exact .array (writtenItems_intercalate (List.forall₂_map_right_iff.2 (.cons hitem hrest))
          (List.cons_ne_nil _ _))
  have hread := ofChars?_written allBlank_nil hwritten allBlank_nil
  rwa [List.nil_append, List.append_nil, ← hchars] at hread

end CoefficientForm.Json
