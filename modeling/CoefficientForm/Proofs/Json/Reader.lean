-- SUMMARY: Every text of a JSON value is read as that value.
import CoefficientForm.Proofs.Json.Literal
import CoefficientForm.Proofs.Json.Number

/-!
# Reading JSON

The reader knows a value by its first character, and each of the rules of the grammar is one step of
it. By induction along the grammar, every text of a value is read as that value, and twice the
length of the text is steps enough.
-/

namespace CoefficientForm.Json

/-! ## White space -/

theorem skipBlanks_append {blanks : List Char} (h : AllBlank blanks) (rest : List Char) :
    skipBlanks (blanks ++ rest) = skipBlanks rest :=
  List.dropWhile_append_of_pos h

theorem skipBlanks_cons {c : Char} (h : isBlank c = false) (rest : List Char) :
    skipBlanks (c :: rest) = c :: rest :=
  List.dropWhile_cons_of_neg (by rw [h]; exact Bool.false_ne_true)

theorem skipBlanks_append_cons {blanks : List Char} (hblanks : AllBlank blanks) {c : Char}
    (h : isBlank c = false) (rest : List Char) : skipBlanks (blanks ++ c :: rest) = c :: rest := by
  rw [skipBlanks_append hblanks, skipBlanks_cons h]

theorem readValue_append {blanks : List Char} (h : AllBlank blanks) (steps : Nat)
    (rest : List Char) : readValue steps (blanks ++ rest) = readValue steps rest := by
  cases steps with
  | zero => simp only [readValue]
  | succ steps => rw [readValue, readValue, skipBlanks_append h]

theorem readItems_append {blanks : List Char} (h : AllBlank blanks) (steps : Nat)
    (rest : List Char) : readItems steps (blanks ++ rest) = readItems steps rest := by
  cases steps with
  | zero => simp only [readItems]
  | succ steps => rw [readItems, readItems, readValue_append h]

theorem readMembers_append {blanks : List Char} (h : AllBlank blanks) (steps : Nat)
    (rest : List Char) : readMembers steps (blanks ++ rest) = readMembers steps rest := by
  cases steps with
  | zero => simp only [readMembers]
  | succ steps => rw [readMembers, readMembers, skipBlanks_append h]

/-! ## One step, by the first character -/

theorem readValue_quote (steps : Nat) (rest : List Char) :
    readValue (steps + 1) ('"' :: rest) =
      (readLiteral rest).map fun (text, after) => (.string text, after) := by
  rw [readValue, skipBlanks_cons rfl]
  rfl

theorem readValue_bracket (steps : Nat) (rest : List Char) :
    readValue (steps + 1) ('[' :: rest) =
      match skipBlanks rest with
      | ']' :: after => some (.array [], after)
      | rest => (readItems steps rest).map fun (items, after) => (.array items, after) := by
  rw [readValue, skipBlanks_cons rfl]
  rfl

theorem readValue_brace (steps : Nat) (rest : List Char) :
    readValue (steps + 1) ('{' :: rest) =
      match skipBlanks rest with
      | '}' :: after => some (.object [], after)
      | rest => (readMembers steps rest).map fun (members, after) => (.object members, after) := by
  rw [readValue, skipBlanks_cons rfl]
  rfl

/-- A character that starts a number starts nothing else. -/
theorem readValue_of_startsNumber {c : Char} (h : StartsNumber c) (steps : Nat)
    (tail : List Char) :
    readValue (steps + 1) (c :: tail) =
      (readNumber (c :: tail)).map fun (value, after) => (.number value, after) := by
  rw [readValue, skipBlanks_cons h.isBlank_eq_false]
  split
  iterate 6
    · rename_i heq
      exact absurd (List.cons.inj heq).1 (h.ne (by simp [StartsNumber]))
  rfl

theorem readValue_array {items : List Json} {cs rest : List Char} {steps : Nat}
    (h : WrittenItems items cs)
    (hread : readItems steps (cs ++ ']' :: rest) = some (items, rest)) :
    readValue (steps + 1) ('[' :: (cs ++ ']' :: rest)) = some (.array items, rest) := by
  obtain ⟨blanks, c, tail, rfl, hblanks, hblank, hc⟩ := h.exists_cons
  rw [List.append_assoc, readItems_append hblanks] at hread
  rw [readValue_bracket, List.append_assoc, List.cons_append, skipBlanks_append_cons hblanks hblank]
  split
  · rename_i heq
    exact absurd (List.cons.inj heq).1 hc
  · rw [← List.cons_append, hread]
    rfl

theorem readValue_object {members : List (Option String × Json)} {cs rest : List Char}
    {steps : Nat} (h : WrittenMembers members cs)
    (hread : readMembers steps (cs ++ '}' :: rest) = some (members, rest)) :
    readValue (steps + 1) ('{' :: (cs ++ '}' :: rest)) = some (.object members, rest) := by
  obtain ⟨blanks, tail, rfl, hblanks⟩ := h.exists_cons
  rw [List.append_assoc, readMembers_append hblanks] at hread
  rw [readValue_brace, List.append_assoc, List.cons_append, skipBlanks_append_cons hblanks rfl]
  split
  · rename_i heq
    exact absurd (List.cons.inj heq).1 (by decide)
  · rw [← List.cons_append, hread]
    rfl

theorem readItems_last {item : Json} {cs after rest : List Char} {steps : Nat}
    (hafter : AllBlank after) (hread : readValue steps cs = some (item, after ++ ']' :: rest)) :
    readItems (steps + 1) cs = some ([item], rest) := by
  rw [readItems, hread]
  dsimp only
  rw [skipBlanks_append_cons hafter rfl]
  rfl

theorem readItems_cons {item : Json} {items : List Json} {cs after next rest : List Char}
    {steps : Nat} (hafter : AllBlank after)
    (hread : readValue steps cs = some (item, after ++ ',' :: next))
    (hnext : readItems steps next = some (items, rest)) :
    readItems (steps + 1) cs = some (item :: items, rest) := by
  rw [readItems, hread]
  dsimp only
  rw [skipBlanks_append_cons hafter rfl]
  show (readItems steps next).map _ = _
  rw [hnext]
  rfl

section Members

variable {name : Option String} {value : Json} {nameText afterName cs after rest : List Char}
  {steps : Nat}

theorem readMembers_last (hname : WrittenLiteral name nameText) (hafterName : AllBlank afterName)
    (hafter : AllBlank after) (hread : readValue steps cs = some (value, after ++ '}' :: rest)) :
    readMembers (steps + 1) (nameText ++ (afterName ++ ':' :: cs)) =
      some ([(name, value)], rest) := by
  obtain ⟨tail, rfl⟩ := hname.exists_cons
  have hliteral := readLiteral_written hname (afterName ++ ':' :: cs)
  have hcolon := skipBlanks_append_cons hafterName (c := ':') rfl cs
  have hbrace := skipBlanks_append_cons hafter (c := '}') rfl rest
  rw [readMembers, List.cons_append, skipBlanks_cons rfl]
  simp only [hliteral, hcolon, hread, hbrace]

theorem readMembers_cons {members : List (Option String × Json)} {next : List Char}
    (hname : WrittenLiteral name nameText) (hafterName : AllBlank afterName)
    (hafter : AllBlank after) (hread : readValue steps cs = some (value, after ++ ',' :: next))
    (hnext : readMembers steps next = some (members, rest)) :
    readMembers (steps + 1) (nameText ++ (afterName ++ ':' :: cs)) =
      some ((name, value) :: members, rest) := by
  obtain ⟨tail, rfl⟩ := hname.exists_cons
  have hliteral := readLiteral_written hname (afterName ++ ':' :: cs)
  have hcolon := skipBlanks_append_cons hafterName (c := ':') rfl cs
  have hcomma := skipBlanks_append_cons hafter (c := ',') rfl next
  rw [readMembers, List.cons_append, skipBlanks_cons rfl]
  simp only [hliteral, hcolon, hread, hcomma, hnext, Option.map_some]

end Members

/-! ## Along the grammar -/

mutual

theorem readValue_written {json : Json} {cs rest : List Char} {steps : Nat} (h : Written json cs)
    (hrest : Follows rest) (hsteps : 2 * cs.length ≤ steps + 1) :
    readValue steps (cs ++ rest) = some (json, rest) := by
  obtain ⟨steps, rfl⟩ : ∃ fewer, steps = fewer + 1 := by
    obtain ⟨c, tail, rfl, -⟩ := h.exists_cons
    rw [List.length_cons] at hsteps
    exact ⟨steps - 1, by omega⟩
  cases h with
  | null => rfl
  | boolTrue => rfl
  | boolFalse => rfl
  | number hnumber =>
      have hread := readNumber_written hnumber hrest
      obtain ⟨c, tail, rfl, hc⟩ := hnumber.exists_cons
      rw [List.cons_append, readValue_of_startsNumber hc, ← List.cons_append, hread]
      rfl
  | string hliteral =>
      obtain ⟨tail, rfl⟩ := hliteral.exists_cons
      rw [List.cons_append, readValue_quote, readLiteral_written hliteral]
      rfl
  | emptyArray hblanks =>
      rw [List.cons_append, List.cons_append, List.append_assoc, List.singleton_append,
        readValue_bracket, skipBlanks_append_cons hblanks rfl]
      rfl
  | array hitems =>
      simp only [List.length_cons, List.length_append] at hsteps
      rw [List.cons_append, List.cons_append, List.append_assoc]
      exact readValue_array hitems (readItems_written hitems (by omega))
  | emptyObject hblanks =>
      rw [List.cons_append, List.cons_append, List.append_assoc, List.singleton_append,
        readValue_brace, skipBlanks_append_cons hblanks rfl]
      rfl
  | object hmembers =>
      simp only [List.length_cons, List.length_append] at hsteps
      rw [List.cons_append, List.cons_append, List.append_assoc]
      exact readValue_object hmembers (readMembers_written hmembers (by omega))

theorem readItems_written {items : List Json} {cs rest : List Char} {steps : Nat}
    (h : WrittenItems items cs) (hsteps : 2 * cs.length ≤ steps) :
    readItems steps (cs ++ ']' :: rest) = some (items, rest) := by
  obtain ⟨steps, rfl⟩ : ∃ fewer, steps = fewer + 1 := by
    obtain ⟨blanks, c, tail, rfl, -⟩ := h.exists_cons
    rw [List.length_append, List.length_cons] at hsteps
    exact ⟨steps - 1, by omega⟩
  cases h with
  | last hbefore hitem hafter =>
      have hfollows := hafter.follows_append (follows_cons (.inr (.inl rfl)) rest)
      simp only [List.length_append] at hsteps
      simp only [List.append_assoc]
      rw [readItems_append hbefore]
      exact readItems_last hafter (readValue_written hitem hfollows (by omega))
  | @cons item items before cs after next hbefore hitem hafter hitems =>
      have hfollows := hafter.follows_append (follows_cons (.inl rfl) (next ++ ']' :: rest))
      simp only [List.length_append, List.length_cons] at hsteps
      simp only [List.append_assoc, List.cons_append]
      rw [readItems_append hbefore]
      exact readItems_cons hafter (readValue_written hitem hfollows (by omega))
        (readItems_written hitems (by omega))

theorem readMembers_written {members : List (Option String × Json)} {cs rest : List Char}
    {steps : Nat} (h : WrittenMembers members cs) (hsteps : 2 * cs.length ≤ steps) :
    readMembers steps (cs ++ '}' :: rest) = some (members, rest) := by
  obtain ⟨steps, rfl⟩ : ∃ fewer, steps = fewer + 1 := by
    obtain ⟨blanks, tail, rfl, -⟩ := h.exists_cons
    rw [List.length_append, List.length_cons] at hsteps
    exact ⟨steps - 1, by omega⟩
  cases h with
  | last hbefore hname hafterName hbeforeValue hvalue hafter =>
      have hfollows := hafter.follows_append (follows_cons (.inr (.inr rfl)) rest)
      simp only [List.length_append, List.length_cons] at hsteps
      simp only [List.append_assoc, List.cons_append]
      rw [readMembers_append hbefore]
      apply readMembers_last hname hafterName hafter
      rw [readValue_append hbeforeValue]
      exact readValue_written hvalue hfollows (by omega)
  | @cons name value members before nameText afterName beforeValue cs after next
      hbefore hname hafterName hbeforeValue hvalue hafter hmembers =>
      have hfollows := hafter.follows_append (follows_cons (.inl rfl) (next ++ '}' :: rest))
      simp only [List.length_append, List.length_cons] at hsteps
      simp only [List.append_assoc, List.cons_append]
      rw [readMembers_append hbefore]
      refine readMembers_cons hname hafterName hafter ?_ (readMembers_written hmembers (by omega))
      rw [readValue_append hbeforeValue]
      exact readValue_written hvalue hfollows (by omega)

end

/-- A whole text may have white space at either end. -/
theorem ofChars?_written {json : Json} {before cs after : List Char} (hbefore : AllBlank before)
    (h : Written json cs) (hafter : AllBlank after) :
    ofChars? (before ++ cs ++ after) = some json := by
  have hread : readValue (2 * (before ++ cs ++ after).length + 1) (before ++ cs ++ after) =
      some (json, after) := by
    rw [List.append_assoc, readValue_append hbefore]
    apply readValue_written h hafter.follows
    simp only [List.length_append]
    omega
  rw [ofChars?, hread]
  exact if_pos (List.all_eq_true.2 hafter)

end CoefficientForm.Json
