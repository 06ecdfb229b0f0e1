-- SUMMARY: A report is read the same from every presentation of it.
import CoefficientForm.Proofs.Json.Printer
import CoefficientForm.Proofs.Report.Json

/-!
# Presentations of a report

One report has many texts. Its members may stand in any order and between members of other names,
and what is absent or empty may be left out. Reading looks at nothing but the values found under the
known names, so every presentation gives the report. An object with no result or two of them, with a
tag of no outcome, or with a factored form that lacks its expression or has null for its intercepts
presents no report and is refused. So is one with a name that denotes no text.
-/

namespace CoefficientForm

namespace Json

/-! ## Texts -/

/-- Whether a text is one of a value, with nothing but white space around it. -/
def HasText (json : Json) (s : String) : Prop :=
  ∃ before cs after, AllBlank before ∧ Written json cs ∧ AllBlank after ∧
    s = String.ofList (before ++ cs ++ after)

theorem HasText.ofText? {json : Json} {s : String} (h : json.HasText s) :
    Json.ofText? s = some json := by
  obtain ⟨before, cs, after, hbefore, hwritten, hafter, rfl⟩ := h
  rw [Json.ofText?, String.toList_ofList, ofChars?_written hbefore hwritten hafter]

theorem hasText_text (json : Json) : json.reread.HasText json.text :=
  ⟨[], json.chars, [], allBlank_nil, json.written_chars, allBlank_nil, by simp [text]⟩

/-! ## Members by name -/

/-- Whether a value is an object without a member of that name. -/
def Lacks (name : String) (json : Json) : Prop :=
  ∃ members, json = .object members ∧ ∀ value, (some name, value) ∉ members

/-- Whether a value is an object with two members of that name. -/
def Repeats (name : String) (json : Json) : Prop :=
  ∃ members first second, json = .object members ∧
    [(some name, first), (some name, second)].Sublist members

/-- Whether a value is an object with a member of that name and value. -/
def Gives (name : String) (json value : Json) : Prop :=
  ∃ members, json = .object members ∧ (some name, value) ∈ members

/-- Whether a value is an object with a member whose name denotes no text. -/
def HasUnnamed (json : Json) : Prop :=
  ∃ members value, json = .object members ∧ (none, value) ∈ members

section Members

variable {name : String} {value : Json} {found : Option Json}
  {members : List (Option String × Json)}

/-- What is found under a name is all that there is under it. -/
theorem member?_eq_some_iff :
    member? name members = some found ↔
      members.filter (·.1 == some name) = found.toList.map fun value => (some name, value) := by
  unfold member?
  split
  · rename_i hfilter
    cases found <;> simp [hfilter]
  · rename_i given value hfilter
    have hgiven : given = some name := by
      have hmem : (given, value) ∈ members.filter (·.1 == some name) := by
        rw [hfilter]
        exact List.mem_singleton_self _
      simpa using (List.mem_filter.1 hmem).2
    cases found <;> simp [hfilter, hgiven]
  · rename_i hnil hone
    constructor
    · intro h
      cases h
    · intro h
      cases found with
      | none => exact absurd h hnil
      | some value => exact absurd h (hone _ _)

theorem eq_some_of_mem (hmember : member? name members = some found)
    (hmem : (some name, value) ∈ members) : found = some value := by
  have hfilter : (some name, value) ∈ members.filter (·.1 == some name) :=
    List.mem_filter.2 ⟨hmem, beq_self_eq_true _⟩
  rw [member?_eq_some_iff.1 hmember] at hfilter
  simpa using hfilter

theorem member?_of_not_mem (h : ∀ value, (some name, value) ∉ members) :
    member? name members = some none := by
  rw [member?_eq_some_iff]
  apply List.filter_eq_nil_iff.2
  rintro ⟨given, value⟩ hmem hname
  cases eq_of_beq hname
  exact h value hmem

theorem member?_eq_none_of_sublist {first second : Json}
    (h : [(some name, first), (some name, second)].Sublist members) :
    member? name members = none := by
  rw [Option.eq_none_iff_forall_ne_some]
  intro found hfound
  have hlength := (h.filter (·.1 == some name)).length_le
  rw [member?_eq_some_iff.1 hfound] at hlength
  cases found <;> simp at hlength

theorem hasTextNames_eq_false (h : (none, value) ∈ members) : hasTextNames members = false :=
  List.all_eq_false.2 ⟨_, h, Bool.false_ne_true⟩

end Members

/-! ## Members among others -/

/-- Whether members are the `known` ones in some order, with any number of others between them. The
others may have any name but `names`, and any values. -/
def Among (names : List String) (known members : List (Option String × Json)) : Prop :=
  ∃ others, members.Perm (known ++ others) ∧
    ∀ other ∈ others, ∃ name, other.1 = some name ∧ name ∉ names

section Among

variable {names : List String} {known members : List (Option String × Json)}

theorem Among.hasTextNames (h : Among names known members) (hknown : hasTextNames known = true) :
    hasTextNames members = true := by
  obtain ⟨others, hperm, hothers⟩ := h
  have hall : others.all (·.1.isSome) = true := by
    rw [List.all_eq_true]
    intro other hmem
    obtain ⟨name, hname, -⟩ := hothers other hmem
    rw [hname]
    rfl
  rw [Json.hasTextNames, hperm.all_eq, List.all_append, hall, Bool.and_true]
  exact hknown

/-- Members of other names change nothing of what is found under a known one, nor does the
order. -/
theorem Among.member? {name : String} {found : Option Json} (h : Among names known members)
    (hname : name ∈ names) (hfound : member? name known = some found) :
    Json.member? name members = some found := by
  obtain ⟨others, hperm, hothers⟩ := h
  have hnone : others.filter (·.1 == some name) = [] := by
    rw [List.filter_eq_nil_iff]
    intro other hmem heq
    obtain ⟨unknown, hunknown, hnot⟩ := hothers other hmem
    rw [hunknown, beq_iff_eq, Option.some.injEq] at heq
    exact hnot (heq ▸ hname)
  have hfilter := hperm.filter (·.1 == some name)
  rw [List.filter_append, hnone, List.append_nil, member?_eq_some_iff.1 hfound] at hfilter
  rw [member?_eq_some_iff]
  cases found with
  | none => exact List.perm_nil.1 hfilter
  | some value => exact List.perm_singleton.1 hfilter

end Among

end Json

/-! ## Factored forms -/

namespace FactoredForm

def memberNames : List String := ["expression", "intercepts"]

/-- The objects that present a factored form. Intercepts that are empty may be left out. -/
inductive Presented (factored : FactoredForm) : Json → Prop
  | given {members : List (Option String × Json)} :
      Json.Among memberNames [(some "expression", .ofString factored.expression),
        (some "intercepts", .array (factored.intercepts.map .ofString))] members →
      Presented factored (.object members)
  | leftOut {members : List (Option String × Json)} : factored.intercepts = [] →
      Json.Among memberNames [(some "expression", .ofString factored.expression)] members →
      Presented factored (.object members)

theorem ofJson?_object_eq_some_iff {members : List (Option String × Json)}
    {factored : FactoredForm} :
    ofJson? (.object members) = some factored ↔
      Json.hasTextNames members = true ∧ ∃ expression intercepts,
        Json.member? "expression" members = some expression ∧
        Json.member? "intercepts" members = some intercepts ∧
        ofValues? expression intercepts = some factored := by
  simp [ofJson?, Option.bind_eq_some_iff]

theorem ofJson?_presented {factored : FactoredForm} {json : Json} (h : factored.Presented json) :
    ofJson? json = some factored := by
  obtain ⟨expression, intercepts⟩ := factored
  cases h with
  | given hamong =>
      rw [ofJson?_object_eq_some_iff]
      refine ⟨hamong.hasTextNames rfl, _, _, hamong.member? (by decide) rfl,
        hamong.member? (by decide) rfl, ?_⟩
      simp only [ofValues?, texts?_map_ofString]
      rfl
  | leftOut hempty hamong =>
      cases hempty
      rw [ofJson?_object_eq_some_iff]
      exact ⟨hamong.hasTextNames rfl, _, _, hamong.member? (by decide) rfl,
        hamong.member? (by decide) rfl, rfl⟩

theorem ofJson?_of_lacks_expression {json : Json} (h : json.Lacks "expression") :
    ofJson? json = none := by
  obtain ⟨members, rfl, hlacks⟩ := h
  simp [ofJson?, Json.member?_of_not_mem hlacks, ofValues?]

theorem ofJson?_of_hasUnnamed {json : Json} (h : json.HasUnnamed) : ofJson? json = none := by
  obtain ⟨members, value, rfl, hmem⟩ := h
  simp [ofJson?, Json.hasTextNames_eq_false hmem]

theorem ofJson?_of_null_intercepts {json : Json} (h : json.Gives "intercepts" .null) :
    ofJson? json = none := by
  obtain ⟨members, rfl, hnull⟩ := h
  rw [Option.eq_none_iff_forall_ne_some]
  intro factored hread
  obtain ⟨-, expression, intercepts, -, hintercepts, hvalues⟩ := ofJson?_object_eq_some_iff.1 hread
  rw [Json.eq_some_of_mem hintercepts hnull] at hvalues
  simp [ofValues?, Json.texts?] at hvalues

end FactoredForm

/-! ## Reports -/

theorem Outcome.ofTag?_eq_none_iff {tag : String} :
    ofTag? tag = none ↔ ∀ outcome : Outcome, outcome.tag ≠ tag := by
  rw [ofTag?, List.find?_eq_none]
  constructor
  · intro h outcome
    have hmem : outcome ∈ all := by cases outcome <;> decide
    simpa using h outcome hmem
  · intro h outcome _
    simpa using h outcome

namespace Report

def memberNames : List String := ["result", "factored"]

/-- The objects that present a tag and a factored form. A factored form that is absent may be left
out or be null. -/
inductive Presented (tag : String) : Option FactoredForm → Json → Prop
  | given {factored : FactoredForm} {value : Json} {members : List (Option String × Json)} :
      factored.Presented value →
      Json.Among memberNames [(some "result", .ofString tag), (some "factored", value)] members →
      Presented tag (some factored) (.object members)
  | null {members : List (Option String × Json)} :
      Json.Among memberNames [(some "result", .ofString tag), (some "factored", .null)] members →
      Presented tag none (.object members)
  | leftOut {members : List (Option String × Json)} :
      Json.Among memberNames [(some "result", .ofString tag)] members →
      Presented tag none (.object members)

theorem ofJson?_object_eq_some_iff {members : List (Option String × Json)} {report : Report} :
    ofJson? (.object members) = some report ↔
      Json.hasTextNames members = true ∧ ∃ result factored,
        Json.member? "result" members = some result ∧
        Json.member? "factored" members = some factored ∧
        ofValues? result factored = some report := by
  simp [ofJson?, Option.bind_eq_some_iff]

theorem ofJson?_presented {outcome : Outcome} {factored : Option FactoredForm} {json : Json}
    (h : Presented outcome.tag factored json) : ofJson? json = some ⟨outcome, factored⟩ := by
  have houtcome : Outcome.ofJson? (.ofString outcome.tag) = some outcome :=
    Outcome.ofTag?_tag outcome
  cases h with
  | @given factored value members hvalue hamong =>
      rw [ofJson?_object_eq_some_iff]
      refine ⟨hamong.hasTextNames rfl, _, _, hamong.member? (by decide) rfl,
        hamong.member? (by decide) rfl, ?_⟩
      have hfactored := FactoredForm.ofJson?_presented hvalue
      cases hvalue <;> simp [ofValues?, houtcome, hfactored]
  | null hamong | leftOut hamong =>
      rw [ofJson?_object_eq_some_iff]
      refine ⟨hamong.hasTextNames rfl, _, _, hamong.member? (by decide) rfl,
        hamong.member? (by decide) rfl, ?_⟩
      simp [ofValues?, houtcome]

theorem ofJson?_of_lacks_result {json : Json} (h : json.Lacks "result") : ofJson? json = none := by
  obtain ⟨members, rfl, hlacks⟩ := h
  simp [ofJson?, Json.member?_of_not_mem hlacks, ofValues?]

theorem ofJson?_of_hasUnnamed {json : Json} (h : json.HasUnnamed) : ofJson? json = none := by
  obtain ⟨members, value, rfl, hmem⟩ := h
  simp [ofJson?, Json.hasTextNames_eq_false hmem]

theorem ofJson?_of_repeats_result {json : Json} (h : json.Repeats "result") :
    ofJson? json = none := by
  obtain ⟨members, first, second, rfl, hsublist⟩ := h
  simp [ofJson?, Json.member?_eq_none_of_sublist hsublist]

theorem ofJson?_of_unknown_tag {json : Json} {tag : String}
    (h : json.Gives "result" (.ofString tag)) (htag : ∀ outcome : Outcome, outcome.tag ≠ tag) :
    ofJson? json = none := by
  obtain ⟨members, rfl, hresult⟩ := h
  have houtcome : Outcome.ofJson? (.ofString tag) = none := Outcome.ofTag?_eq_none_iff.2 htag
  rw [Option.eq_none_iff_forall_ne_some]
  intro report hread
  obtain ⟨-, result, factored, hmember, -, hvalues⟩ := ofJson?_object_eq_some_iff.1 hread
  rw [Json.eq_some_of_mem hmember hresult] at hvalues
  simp [ofValues?, houtcome] at hvalues

/-- A factored form that cannot be read makes the report unreadable. -/
theorem ofJson?_of_unreadable_factored {json : Json} {members : List (Option String × Json)}
    (h : json.Gives "factored" (.object members))
    (hread : FactoredForm.ofJson? (.object members) = none) : ofJson? json = none := by
  obtain ⟨outer, rfl, hfactored⟩ := h
  rw [Option.eq_none_iff_forall_ne_some]
  intro report hreport
  obtain ⟨-, result, factored, -, hmember, hvalues⟩ := ofJson?_object_eq_some_iff.1 hreport
  rw [Json.eq_some_of_mem hmember hfactored] at hvalues
  simp [ofValues?, hread] at hvalues

/-- A report is read from every text of every presentation of it. The tag alone decides about the
outcome, so the tag of another outcome in its place gives the report of that outcome. No report is
read if the result or the expression is missing, if there are two results, if the result is the tag
of no outcome, if the intercepts are null, or if the name of any member denotes no text. -/
theorem ofJsonText?_of_presented {json : Json} {s : String} (hs : json.HasText s) :
    (∀ outcome factored, Presented outcome.tag factored json →
      ofJsonText? s = some ⟨outcome, factored⟩) ∧
    (∀ tag, json.Gives "result" (.ofString tag) → (∀ outcome : Outcome, outcome.tag ≠ tag) →
      ofJsonText? s = none) ∧
    (json.Lacks "result" ∨ json.Repeats "result" ∨ json.HasUnnamed → ofJsonText? s = none) ∧
    ∀ members, json.Gives "factored" (.object members) →
      (Json.object members).Lacks "expression" ∨ (Json.object members).Gives "intercepts" .null ∨
        (Json.object members).HasUnnamed →
      ofJsonText? s = none := by
  have hread : ofJsonText? s = ofJson? json := by
    rw [ofJsonText?, hs.ofText?]
    rfl
  rw [hread]
  refine ⟨fun outcome factored h => ofJson?_presented h,
    fun tag hresult htag => ofJson?_of_unknown_tag hresult htag, ?_, ?_⟩
  · rintro (hlacks | hrepeats | hunnamed)
    · exact ofJson?_of_lacks_result hlacks
    · exact ofJson?_of_repeats_result hrepeats
    · exact ofJson?_of_hasUnnamed hunnamed
  · intro members hfactored hunreadable
    apply ofJson?_of_unreadable_factored hfactored
    rcases hunreadable with hlacks | hnull | hunnamed
    · exact FactoredForm.ofJson?_of_lacks_expression hlacks
    · exact FactoredForm.ofJson?_of_null_intercepts hnull
    · exact FactoredForm.ofJson?_of_hasUnnamed hunnamed

/-- Members out of order and between others, of which one holds half of a surrogate pair and a
number too large for a double, and escapes in a name, in the tag and in an intercept; then two
objects that are no presentations. -/
theorem ofJsonText?_of_reordered_and_escaped :
    ofJsonText? ("\t\x7b\"note\":[1e999,\"\\ud800\",\x7b\"\":[ ]\x7d],\"factored\":\x7b" ++
      "\"intercepts\" :[\"\\uD83D\\uDE00\"],\"result\":null,\"expression\":\"x\"\x7d,\n" ++
      "\"\\u0072esult\":\"\\u0066ull\"\x7d ") = some ⟨.full, some ⟨"x", ["😀"]⟩⟩ ∧
    ofJsonText? "\x7b\"result\":\"full\",\"result\":\"full\"\x7d" = none ∧
    ofJsonText?
      "\x7b\"result\":\"full\",\"factored\":\x7b\"expression\":\"x\",\"intercepts\":null\x7d\x7d" =
        none := by
  refine ⟨?_, ?_, ?_⟩
  · let note : Json := .array [.number (Json.numberOf false ['1'] [] 999), .string none,
      .object [(some "", .array [])]]
    let inner : List (Option String × Json) :=
      [(some "intercepts", .array [.ofString "😀"]), (some "result", .null),
        (some "expression", .ofString "x")]
    let outer : List (Option String × Json) :=
      [(some "note", note), (some "factored", .object inner), (some "result", .ofString "full")]
    have hinner : FactoredForm.Presented ⟨"x", ["😀"]⟩ (.object inner) :=
      .given ⟨[(some "result", .null)], @List.perm_append_comm _ [_, _] [_],
        by simp [FactoredForm.memberNames]⟩
    have houter : Presented "full" (some ⟨"x", ["😀"]⟩) (.object outer) :=
      .given hinner ⟨[(some "note", note)], List.reverse_perm [_, _, _], by simp [memberNames]⟩
    -- The text of each object follows from those of its members.
    have hnil := Json.allBlank_nil
    have hspace : Json.AllBlank [' '] := by simp [Json.AllBlank, Json.isBlank]
    have hline : Json.AllBlank ['\n'] := by simp [Json.AllBlank, Json.isBlank]
    have htab : Json.AllBlank ['\t'] := by simp [Json.AllBlank, Json.isBlank]
    have hplain := Json.writtenLiteral_literal
    have hnumber : Json.WrittenNumber (Json.numberOf false ['1'] [] 999)
        ['1', 'e', '9', '9', '9'] :=
      @Json.WrittenNumber.positional false ['1'] [] [] ['e', '9', '9', '9'] 999 rfl
        (by simp) .absent (@Json.WrittenPower.given 'e' false [] ['9', '9', '9'] (.inl rfl) .absent
          ⟨by simp, by simp⟩)
    have hpair : Json.WrittenChar '😀'
        (['\\', 'u', 'D', '8', '3', 'D'] ++ ['\\', 'u', 'D', 'E', '0', '0']) :=
      .pair (by decide) (.hexadecimal rfl) (.hexadecimal rfl)
    have hintercept : Json.WrittenLiteral (some "😀") _ :=
      Json.writtenLiteral_of_writtenChars (.cons hpair .nil)
    have hname : Json.WrittenLiteral (some "result") _ :=
      Json.writtenLiteral_of_writtenChars (.cons
        (.unit (.hexadecimal (a := '0') (b := '0') (c := '7') (d := '2') rfl))
        (Json.writtenChars_literalChars ['e', 's', 'u', 'l', 't']))
    have htag : Json.WrittenLiteral (some "full") _ :=
      Json.writtenLiteral_of_writtenChars (.cons
        (.unit (.hexadecimal (a := '0') (b := '0') (c := '6') (d := '6') rfl))
        (Json.writtenChars_literalChars ['u', 'l', 'l']))
    have hnote := Json.Written.array (.cons hnil (.number hnumber) hnil (.cons hnil
      (.string (hplain none)) hnil (.last hnil (.object (.last hnil (hplain (some "")) hnil hnil
        (.emptyArray hspace) hnil)) hnil)))
    have hfactored := Json.Written.object (.cons hnil (hplain (some "intercepts")) hspace hnil
      (.array (.last hnil (.string hintercept) hnil)) hnil (.cons hnil (hplain (some "result")) hnil
        hnil .null hnil (.last hnil (hplain (some "expression")) hnil hnil
          (.string (hplain (some "x"))) hnil)))
    have hreport := Json.Written.object (.cons hnil (hplain (some "note")) hnil hnil hnote hnil
      (.cons hnil (hplain (some "factored")) hnil hnil hfactored hnil (.last hline hname
        hnil hnil (.string htag) hnil)))
    exact (ofJsonText?_of_presented ⟨_, _, _, htab, hreport, hspace, by decide +kernel⟩).1 .full _
      houter
  · let json : Json :=
      .object [(some "result", .ofString "full"), (some "result", .ofString "full")]
    exact (ofJsonText?_of_presented json.hasText_text).2.2.1 (.inr (.inl ⟨_, _, _, rfl, .refl _⟩))
  · let inner : List (Option String × Json) :=
      [(some "expression", .ofString "x"), (some "intercepts", .null)]
    let json : Json := .object [(some "result", .ofString "full"), (some "factored", .object inner)]
    exact (ofJsonText?_of_presented json.hasText_text).2.2.2 inner
      ⟨_, rfl, .tail _ (.head _)⟩ (.inr (.inl ⟨_, rfl, .tail _ (.head _)⟩))

/-- Not every other string in place of the tag is refused: it may be the tag of another outcome. Nor
is every member of another name skipped: its name may denote no text. -/
theorem ofJsonText?_of_replaced_tag_or_unnamed :
    (¬ ∀ (report : Report) (tag : String) (json : Json) (s : String),
      Presented tag report.factored json → json.HasText s → tag ≠ report.outcome.tag →
      ofJsonText? s = none) ∧
    ofJsonText? "\x7b\"result\":\"not\",\"\\ud800\":null\x7d" = none := by
  constructor
  · intro hrefused
    let json : Json := .object [(some "result", .ofString "not")]
    have hpresented : Presented "not" none json := .leftOut ⟨[], .refl _, by simp⟩
    have htext : json.HasText "\x7b\"result\":\"not\"\x7d" := json.hasText_text
    have hnone := hrefused ⟨.failed, none⟩ "not" json _ hpresented htext (by decide)
    rw [ofJsonText?, htext.ofText?] at hnone
    cases hnone
  · let json : Json := .object [(some "result", .ofString "not"), (none, .null)]
    have htext : json.HasText "\x7b\"result\":\"not\",\"\\ud800\":null\x7d" := json.hasText_text
    have hunnamed : json.HasUnnamed := ⟨_, _, rfl, .tail _ (.head _)⟩
    rw [ofJsonText?, htext.ofText?]
    exact ofJson?_of_hasUnnamed hunnamed

end Report

end CoefficientForm
