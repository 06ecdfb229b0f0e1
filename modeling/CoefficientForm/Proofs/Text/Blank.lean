-- SUMMARY: What is left of a text without the blanks around it.
import Mathlib.Data.List.DropRight
import Mathlib.Tactic
import CoefficientForm.Text.Blank

/-!
# Texts without blanks

No letter, digit, point or sign is a blank. A text without blanks is read as it is, and any other
as the part of it that starts and ends with no blank and has only blanks around it. So blanks put
around a text make no difference.
-/

namespace CoefficientForm.Text

/-- The blanks of ASCII come before all its letters and digits. -/
theorem isBlank_of_isAlphanum {c : Char} (h : c.isAlphanum = true) : isBlank c = false := by
  have hbetween (first last : Char) (hfirst : 0x20 < first.toNat) (hlast : last.toNat < 0x85)
      (hc : first.val ≤ c.val ∧ c.val ≤ last.val) : 0x20 < c.toNat ∧ c.toNat < 0x85 :=
    ⟨hfirst.trans_le (UInt32.le_iff_toNat_le.1 hc.1),
      Nat.lt_of_le_of_lt (UInt32.le_iff_toNat_le.1 hc.2) hlast⟩
  have hascii : 0x20 < c.toNat ∧ c.toNat < 0x85 := by
    rcases Bool.or_eq_true_iff.1 h with hletter | hdigit
    · rcases Bool.or_eq_true_iff.1 hletter with hupper | hlower
      · exact hbetween 'A' 'Z' (by decide) (by decide) (of_decide_eq_true hupper)
      · obtain ⟨hfirst, hlast⟩ := Bool.and_eq_true_iff.1 hlower
        exact hbetween 'a' 'z' (by decide) (by decide)
          ⟨of_decide_eq_true hfirst, of_decide_eq_true hlast⟩
    · obtain ⟨hzero, hnine⟩ := Bool.and_eq_true_iff.1 hdigit
      exact hbetween '0' '9' (by decide) (by decide)
        ⟨of_decide_eq_true hzero, of_decide_eq_true hnine⟩
  rw [← Bool.not_eq_true]
  intro hblank
  simp only [isBlank, inRanges, blankRanges, List.any_cons, List.any_nil, Bool.or_eq_true,
    Bool.and_eq_true, decide_eq_true_eq, Bool.false_eq_true, or_false] at hblank
  omega

/-! ## Blanks around a text -/

/-- Whether a text consists of blanks. -/
def AllBlank (cs : List Char) : Prop :=
  ∀ c ∈ cs, isBlank c = true

theorem AllBlank.append {cs other : List Char} (h : AllBlank cs) (hother : AllBlank other) :
    AllBlank (cs ++ other) := by
  intro c hc
  exact (List.mem_append.1 hc).elim (h c) (hother c)

/-- Whether `inner` starts and ends with no blank and has only blanks around it in `cs`. -/
structure Trims (cs inner : List Char) : Prop where
  exists_eq : ∃ before after, AllBlank before ∧ AllBlank after ∧ cs = before ++ inner ++ after
  head : ∀ c ∈ inner.head?, isBlank c = false
  last : ∀ c ∈ inner.getLast?, isBlank c = false

theorem dropTrailing_append {p : Char → Bool} {cs after : List Char}
    (hafter : ∀ c ∈ after, p c = true) (hlast : ∀ c ∈ cs.getLast?, p c = false) :
    dropTrailing p (cs ++ after) = cs := by
  have hreverse : ∀ c ∈ after.reverse, p c = true :=
    fun c hc => hafter c (List.mem_reverse.1 hc)
  have hhead : cs.reverse.dropWhile p = cs.reverse := by
    cases hcs : cs.reverse with
    | nil => rfl
    | cons c rest =>
        apply List.dropWhile_cons_of_neg
        rw [hlast c (by rw [← List.head?_reverse, hcs]; rfl)]
        exact Bool.false_ne_true
  rw [dropTrailing, List.reverse_append, List.dropWhile_append_of_pos hreverse, hhead,
    List.reverse_reverse]

theorem last_dropTrailing (p : Char → Bool) (cs : List Char) :
    ∀ c ∈ (dropTrailing p cs).getLast?, p c = false := by
  intro c hc
  obtain ⟨hne, rfl⟩ := List.mem_getLast?_eq_getLast hc
  exact Bool.eq_false_iff.2 (List.rdropWhile_last_not p cs hne)

theorem Trims.trim_eq {cs inner : List Char} (h : Trims cs inner) : trim cs = inner := by
  obtain ⟨⟨before, after, hbefore, hafter, rfl⟩, hhead, hlast⟩ := h
  rw [trim, List.append_assoc, List.dropWhile_append_of_pos hbefore]
  cases inner with
  | nil =>
      have hnone : after.dropWhile isBlank = [] := List.dropWhile_eq_nil_iff.2 hafter
      rw [List.nil_append, hnone]
      rfl
  | cons c rest =>
      have hkept : (c :: rest ++ after).dropWhile isBlank = c :: rest ++ after := by
        apply List.dropWhile_cons_of_neg
        rw [hhead c rfl]
        exact Bool.false_ne_true
      rw [hkept, dropTrailing_append hafter hlast]

theorem trims_trim (cs : List Char) : Trims cs (trim cs) := by
  have hprefix : trim cs ++ (cs.dropWhile isBlank).rtakeWhile isBlank = cs.dropWhile isBlank :=
    List.rdropWhile_append_rtakeWhile
  refine ⟨⟨cs.takeWhile isBlank, (cs.dropWhile isBlank).rtakeWhile isBlank, ?_, ?_, ?_⟩, ?_,
    last_dropTrailing isBlank _⟩
  · exact fun c => List.mem_takeWhile_imp
  · exact fun c => List.mem_rtakeWhile_imp
  · rw [List.append_assoc, hprefix, List.takeWhile_append_dropWhile]
  · intro c hc
    have hhead := List.head?_dropWhile_not isBlank cs
    rw [← hprefix, List.head?_append, Option.mem_def.1 hc] at hhead
    simpa using hhead

/-- Taking the blanks away leaves the one text that starts and ends with none of them. -/
theorem trim_eq_iff {cs inner : List Char} : trim cs = inner ↔ Trims cs inner :=
  ⟨fun h => h ▸ trims_trim cs, Trims.trim_eq⟩

theorem trimmed_of_forall {s : String} (h : ∀ c ∈ s.toList, isBlank c = false) :
    trimmed s = s := by
  have htrims : Trims s.toList s.toList := by
    refine ⟨⟨[], [], by simp [AllBlank], by simp [AllBlank], by simp⟩, ?_, ?_⟩
    · exact fun c hc => h c (List.mem_of_mem_head? hc)
    · exact fun c hc => h c (List.mem_of_getLast? hc)
  rw [trimmed, htrims.trim_eq, String.ofList_toList]

theorem trim_append {before after : List Char} (hbefore : AllBlank before)
    (hafter : AllBlank after) (cs : List Char) : trim (before ++ cs ++ after) = trim cs := by
  obtain ⟨⟨first, last, hfirst, hlast, heq⟩, hhead, htail⟩ := trims_trim cs
  apply Trims.trim_eq
  refine ⟨⟨before ++ first, last ++ after, hbefore.append hfirst, hlast.append hafter, ?_⟩,
    hhead, htail⟩
  conv_lhs => rw [heq]
  simp only [List.append_assoc]

theorem trimmed_append {before after : List Char} (hbefore : AllBlank before)
    (hafter : AllBlank after) (s : String) :
    trimmed (String.ofList before ++ s ++ String.ofList after) = trimmed s := by
  rw [trimmed, String.toList_append, String.toList_append, String.toList_ofList,
    String.toList_ofList, trim_append hbefore hafter, trimmed]

end CoefficientForm.Text
