-- SUMMARY: What the collect command prints and logs, and how it fails, for all options.
import CoefficientForm.Command.Run
import CoefficientForm.Proofs.Form.Filling
import CoefficientForm.Proofs.Form.History
import CoefficientForm.Proofs.Form.Log

/-!
# Collecting coefficients

The command succeeds exactly when the degree is accepted, there is a field for each entry, and every
entry resolves. It then prints the coefficients of the entries from the degree down, with zeros for
the exponents that are left. Otherwise it prints nothing and says what is wrong with the degree,
with the number of the entries, or with the first entry that does not resolve, in this order. The
banner that it reports for a refused degree is the one that the form raised.
-/

namespace CoefficientForm.CollectOptions

open Command (Failure)

variable {options : CollectOptions} {degree : Degree} {coefficients : Coefficients}

/-! ## What is asked for -/

theorem bounds_settings (options : CollectOptions) :
    options.settings.bounds =
      ⟨options.min.getD (if options.legacy then 2 else 3), options.max.getD 1024⟩ := by
  obtain ⟨_, _, legacy, min, max, _, _⟩ := options
  cases legacy <;> cases min <;> cases max <;> rfl

theorem notMem_of_mem_splitOn {separator : Char} {cs piece : List Char}
    (h : piece ∈ cs.splitOn separator) : separator ∉ piece := by
  rw [List.splitOn_eq_splitOnP] at h
  induction cs generalizing piece with
  | nil =>
      rw [List.splitOnP_nil, List.mem_singleton] at h
      rw [h]
      exact List.not_mem_nil
  | cons c rest ih =>
      rw [List.splitOnP_cons_eq_if_modifyHead] at h
      split at h
      · rcases List.mem_cons.1 h with rfl | hrest
        · exact List.not_mem_nil
        · exact ih hrest
      · rename_i hc
        obtain ⟨first, others, hpieces⟩ :=
          List.exists_cons_of_ne_nil (List.splitOnP_ne_nil (· == separator) rest)
        rw [hpieces] at ih
        rw [hpieces, List.modifyHead_cons] at h
        rcases List.mem_cons.1 h with rfl | hother
        · have hne : separator ≠ c := by
            rintro rfl
            exact hc (beq_self_eq_true separator)
          exact List.not_mem_cons_of_ne_of_not_mem hne (ih List.mem_cons_self)
        · exact ih (List.mem_cons_of_mem _ hother)

/-- The entries are what stands between the commas. -/
theorem intercalate_entries (h : options.values ≠ "") :
    ",".intercalate options.entries = options.values ∧
      ∀ entry ∈ options.entries, ',' ∉ entry.toList := by
  have hentries : options.entries = (options.values.toList.splitOn ',').map String.ofList := by
    rw [entries, if_neg h]
  have hlists : options.entries.map String.toList = options.values.toList.splitOn ',' := by
    simp only [hentries, List.map_map, Function.comp_def, String.toList_ofList, List.map_id']
  constructor
  · apply String.toList_injective
    rw [String.toList_intercalate, hlists]
    exact List.intercalate_splitOn ','
  · intro entry hentry
    have hmem := List.mem_map_of_mem (f := String.toList) hentry
    rw [hlists] at hmem
    exact notMem_of_mem_splitOn hmem

/-! ## Filling the form -/

/-- The new form with the degree accepted. -/
def opened (options : CollectOptions) (degree : Degree) : Form :=
  ((Form.empty options.settings).withDegreeText options.degree).acceptDegree degree

theorem goResponse_of_ok (h : Degree.ofText options.settings.bounds options.degree = .ok degree) :
    options.goResponse =
      ⟨options.opened degree, .degree (.ok degree), Form.acceptanceLog degree, []⟩ := by
  have hcheck : ((Form.empty options.settings).withDegreeText options.degree).checkDegree =
      .ok degree := h
  simp only [goResponse, Form.step, hcheck, opened]

theorem goResponse_of_error {refusal : DegreeRefusal}
    (h : Degree.ofText options.settings.bounds options.degree = .error refusal) :
    let typed := (Form.empty options.settings).withDegreeText options.degree
    options.goResponse =
      ⟨typed.refuseDegree, .degree (.error refusal), typed.refusalLog refusal, []⟩ := by
  have hcheck : ((Form.empty options.settings).withDegreeText options.degree).checkDegree =
      .error refusal := h
  simp only [goResponse, Form.step, hcheck]

theorem openedForm_of_ok (h : Degree.ofText options.settings.bounds options.degree = .ok degree) :
    options.openedForm = .ok (options.opened degree) := by
  simp only [openedForm, goResponse_of_ok h]

/-- A refused degree leaves a form with a banner, so that no other text takes its place. -/
theorem openedForm_of_error {refusal : DegreeRefusal}
    (h : Degree.ofText options.settings.bounds options.degree = .error refusal) :
    options.openedForm = .error ⟨options.settings.banner, [refusal.message]⟩ := by
  simp only [openedForm, goResponse_of_error h]
  rfl

theorem shows_opened (h : Degree.ofText options.settings.bounds options.degree = .ok degree) :
    (options.opened degree).Shows degree :=
  Form.shows_acceptDegree h

theorem entered?_opened (options : CollectOptions) {name : FieldName}
    (h : name.exponent ≤ degree.value) : (options.opened degree).entered? name = some "" := by
  rw [opened, Form.entered?_acceptDegree, if_pos h, Form.initialEntry_of_unshown]
  exact Form.field?_empty options.settings name

/-- Whether the degree is accepted with a field for each entry, and a form shows the fields for it
and holds the entries from the degree down, the rest of the fields blank. -/
structure Filled (options : CollectOptions) (degree : Degree) (form : Form) : Prop where
  degree_eq : Degree.ofText options.settings.bounds options.degree = .ok degree
  length_le : options.entries.length ≤ degree.termCount
  shows : form.Shows degree
  entered : ∀ name : FieldName, name.exponent ≤ degree.value →
    form.entered? name =
      some ((options.entries[degree.value.toNat - name.exponent.toNat]?).getD "")

theorem filledForm_of_length_le
    (h : Degree.ofText options.settings.bounds options.degree = .ok degree)
    (hlength : options.entries.length ≤ degree.termCount) :
    ∃ form, options.filledForm (options.opened degree) = .ok form ∧ options.Filled degree form := by
  have hshows := shows_opened h
  obtain ⟨form, hfill, hfilled, hentered⟩ := hshows.fill hlength
  have hnot : ¬ (options.opened degree).slots.length < options.entries.length := by
    rw [hshows.length_slots]
    exact Nat.not_lt.2 hlength
  refine ⟨form, by simp only [filledForm, if_neg hnot, hfill], h, hlength, hfilled, ?_⟩
  intro name hname
  rw [hentered name hname, entered?_opened options hname]
  cases options.entries[degree.value.toNat - name.exponent.toNat]? <;> rfl

theorem filledForm_of_lt_length
    (h : Degree.ofText options.settings.bounds options.degree = .ok degree)
    (hlength : degree.termCount < options.entries.length) :
    options.filledForm (options.opened degree) =
      .error
        ⟨s!"{options.entries.length} values given but only {degree.termCount} fields are shown",
          []⟩ := by
  have hslots := (shows_opened h).length_slots
  simp only [filledForm, hslots, if_pos hlength]

/-! ## Submitting what was filled in -/

/-- Whether the options ask for a polynomial of that degree with these coefficients: the degree is
accepted, there is at most one entry for each exponent, an entry gives the coefficient at its place
from the degree down, and the others are zero. -/
structure Collects (options : CollectOptions) (degree : Degree) (coefficients : Coefficients) :
    Prop where
  degree_eq : Degree.ofText options.settings.bounds options.degree = .ok degree
  length_le : options.entries.length ≤ degree.termCount
  size_eq : coefficients.values.size = degree.termCount
  entered : ∀ index entry, options.entries[index]? = some entry →
    ∃ value, coefficientOf entry = .ok value ∧
      coefficients.values[degree.value.toNat - index]? = some value
  rest : ∀ exponent, exponent + options.entries.length < degree.termCount →
    coefficients.values[exponent]? = some (.zero false)

/-- The entry counted from the degree down is in the field for its exponent. -/
theorem Filled.entered?_nameAt {form : Form} (hfilled : options.Filled degree form) {index : Nat}
    (hindex : index < degree.termCount) :
    form.entered? (degree.nameAt index) = some ((options.entries[index]?).getD "") := by
  rw [hfilled.entered _ (degree.nameAt_le index), degree.toNat_nameAt,
    Nat.sub_sub_self (Nat.le_of_lt_succ hindex)]

theorem Filled.submit_eq_ok_iff {form : Form} (hfilled : options.Filled degree form) :
    form.submit = .ok coefficients ↔ options.Collects degree coefficients := by
  rw [hfilled.shows.submit_eq_ok_iff]
  constructor
  · rintro ⟨hsize, hvalues⟩
    have hvalue : ∀ index, index < degree.termCount →
        ∃ value, coefficientOf ((options.entries[index]?).getD "") = .ok value ∧
          coefficients.values[degree.value.toNat - index]? = some value := by
      intro index hindex
      obtain ⟨entry, value, hentry, hvalue, hat⟩ :=
        hvalues (degree.nameAt index) (degree.nameAt_le index)
      rw [hfilled.entered?_nameAt hindex, Option.some.injEq] at hentry
      rw [Coefficients.get?, degree.toNat_nameAt] at hat
      exact ⟨value, hentry ▸ hvalue, hat⟩
    refine ⟨hfilled.degree_eq, hfilled.length_le, hsize, ?_, ?_⟩
    · intro index entry hentry
      have hread := hvalue index ((List.getElem?_eq_some_iff.1 hentry).1.trans_le hfilled.length_le)
      rwa [hentry, Option.getD_some] at hread
    · intro exponent hbelow
      rw [Degree.termCount] at hbelow hvalue
      obtain ⟨value, hblank, hat⟩ := hvalue (degree.value.toNat - exponent) (by omega)
      rw [List.getElem?_eq_none (by omega), Option.getD_none, coefficientOf_empty,
        Except.ok.injEq] at hblank
      rwa [Nat.sub_sub_self (by omega), ← hblank] at hat
  · intro hcollects
    refine ⟨hcollects.size_eq, ?_⟩
    intro name hname
    have hnat : name.exponent.toNat ≤ degree.value.toNat := UInt32.le_iff_toNat_le.1 hname
    rw [hfilled.entered name hname, Coefficients.get?]
    cases hentry : options.entries[degree.value.toNat - name.exponent.toNat]? with
    | some entry =>
        obtain ⟨value, hvalue, hat⟩ := hcollects.entered _ entry hentry
        rw [Nat.sub_sub_self hnat] at hat
        exact ⟨entry, value, rfl, hvalue, hat⟩
    | none =>
        have hbelow : name.exponent.toNat + options.entries.length < degree.termCount := by
          have hend := List.getElem?_eq_none_iff.1 hentry
          rw [Degree.termCount]
          omega
        exact ⟨"", .zero false, rfl, coefficientOf_empty, hcollects.rest _ hbelow⟩

/-- The ways in which the command fails, and the warning or error that is logged with each. Each
excludes the ones before it. -/
inductive Fails (options : CollectOptions) : Failure → Option LogRecord → Prop where
  /-- The degree is refused, and says so beneath the banner. -/
  | refused {refusal : DegreeRefusal} :
      Degree.ofText options.settings.bounds options.degree = .error refusal →
      Fails options ⟨options.settings.banner, [refusal.message]⟩
        (some ⟨.warning, s!"degree rejected: {refusal.message}", [("input", options.degree)]⟩)
  /-- There is no field for the last of the entries. -/
  | tooMany {degree : Degree} :
      Degree.ofText options.settings.bounds options.degree = .ok degree →
      degree.termCount < options.entries.length →
      Fails options
        ⟨s!"{options.entries.length} values given but only {degree.termCount} fields are shown", []⟩
        none
  /-- An entry does not resolve, and every entry for a higher exponent does. -/
  | unreadable {degree : Degree} {index : Nat} {entry : String} {e : SubmissionError} :
      Degree.ofText options.settings.bounds options.degree = .ok degree →
      options.entries.length ≤ degree.termCount →
      options.entries[index]? = some entry → ¬ Resolves entry →
      e = .invalidEntry (degree.nameAt index) ⟨Text.trimmed entry⟩ →
      (∀ (earlier : Nat) (other : String), earlier < index →
        options.entries[earlier]? = some other → Resolves other) →
      Fails options ⟨"submission failed", e.causes⟩
        (some ⟨.error, s!"submission aborted: {e.message}", []⟩)

theorem Filled.fails_of_submit_eq_error {form : Form} (hfilled : options.Filled degree form)
    {e : SubmissionError} (hsubmit : form.submit = .error e) :
    options.Fails ⟨"submission failed", e.causes⟩
      (some ⟨.error, s!"submission aborted: {e.message}", []⟩) := by
  obtain ⟨name, entry, hname, hentry, hresolves, rfl, hhigher⟩ :=
    hfilled.shows.of_submit_eq_error hsubmit
  have hgiven : options.entries[degree.value.toNat - name.exponent.toNat]? = some entry := by
    rw [hfilled.entered name hname, Option.some.injEq] at hentry
    cases hplace : options.entries[degree.value.toNat - name.exponent.toNat]? with
    | some given => rw [← hentry, hplace, Option.getD_some]
    | none =>
        rw [hplace, Option.getD_none] at hentry
        exact absurd (hentry ▸ resolves_empty) hresolves
  rw [← degree.nameAt_sub hname]
  refine .unreadable hfilled.degree_eq hfilled.length_le hgiven hresolves rfl ?_
  intro earlier other hearlier hother
  have hhigh : name.exponent < (degree.nameAt earlier).exponent := by
    rw [UInt32.lt_iff_toNat_lt, degree.toNat_nameAt]
    omega
  obtain ⟨text, htext, hreads⟩ := hhigher _ hhigh (degree.nameAt_le earlier)
  rw [hfilled.entered?_nameAt ((List.getElem?_eq_some_iff.1 hother).1.trans_le hfilled.length_le),
    hother, Option.getD_some, Option.some.injEq] at htext
  exact htext ▸ hreads

/-! ## Running the command -/

/-- With an accepted degree and a field for each entry, running comes down to submitting. -/
theorem exists_filled_run_eq
    (h : Degree.ofText options.settings.bounds options.degree = .ok degree)
    (hlength : options.entries.length ≤ degree.termCount) :
    ∃ form, options.Filled degree form ∧ options.run = (submission form).map options.lines ∧
      options.log = Form.acceptanceLog degree ++ (form.step .submit).log := by
  obtain ⟨form, hform, hfilled⟩ := filledForm_of_length_le h hlength
  refine ⟨form, hfilled, ?_, ?_⟩
  · rw [run, openedForm_of_ok h]
    simp only [bind, Except.bind, hform]
    cases submission form <;> rfl
  · simp only [log, goResponse_of_ok h, openedForm_of_ok h, Except.bind, hform]

theorem run_cases (options : CollectOptions) :
    (∃ failure record?, options.run = .error failure ∧ options.Fails failure record? ∧
      Form.severe options.log = record?.toList) ∨
    ∃ degree coefficients, options.Collects degree coefficients := by
  cases h : Degree.ofText options.settings.bounds options.degree with
  | error refusal =>
      refine .inl ⟨_, _, ?_, .refused h, ?_⟩
      · rw [run, openedForm_of_error h]
        rfl
      · simp only [log, goResponse_of_error h, openedForm_of_error h, Except.bind]
        rfl
  | ok degree =>
      rcases Nat.lt_or_ge degree.termCount options.entries.length with hlength | hlength
      · refine .inl ⟨_, _, ?_, .tooMany h hlength, ?_⟩
        · rw [run, openedForm_of_ok h]
          simp only [bind, Except.bind, filledForm_of_lt_length h hlength]
        · simp only [log, goResponse_of_ok h, openedForm_of_ok h, Except.bind,
            filledForm_of_lt_length h hlength, Form.severe_acceptanceLog_append]
          rfl
      · obtain ⟨form, hfilled, hrun, hlog⟩ := exists_filled_run_eq h hlength
        cases hsubmit : form.submit with
        | error e =>
            refine .inl ⟨_, _, ?_, hfilled.fails_of_submit_eq_error hsubmit, ?_⟩
            · simp only [hrun, submission, hsubmit, Except.map]
            · rw [hlog, Form.severe_acceptanceLog_append]
              simp only [Form.step, Form.submissionLog, hfilled.shows.degree_eq, hsubmit]
              rfl
        | ok coefficients =>
            exact .inr ⟨degree, coefficients, hfilled.submit_eq_ok_iff.1 hsubmit⟩

theorem Collects.run_eq (h : options.Collects degree coefficients) :
    options.run = .ok (options.lines coefficients) := by
  obtain ⟨form, hfilled, hrun, -⟩ := exists_filled_run_eq h.degree_eq h.length_le
  have hsubmit := hfilled.submit_eq_ok_iff.2 h
  simp only [hrun, submission, hsubmit, Except.map]

/-- What is logged when the command succeeds, which is about the degree alone. -/
def successLog (degree : Degree) : List LogRecord :=
  [⟨.debug, "regenerated term fields",
    [("degree", degree.text), ("fields", toString degree.termCount)]⟩,
   ⟨.debug, "coefficients submitted", [("degree", degree.text)]⟩]

theorem Collects.log_eq (h : options.Collects degree coefficients) :
    options.log = successLog degree := by
  obtain ⟨form, hfilled, -, hlog⟩ := exists_filled_run_eq h.degree_eq h.length_le
  have hsubmit := hfilled.submit_eq_ok_iff.2 h
  rw [hlog, Form.acceptanceLog_eq]
  simp only [Form.step, Form.submissionLog, hfilled.shows.degree_eq, hsubmit]
  rfl

/-! ## What is printed -/

/-- All that is printed for coefficients: their list from the constant term up, a line for each from
the leading term down, and the query and the check where they are asked for. -/
def printed (options : CollectOptions) (coefficients : Coefficients) : String :=
  let texts := coefficients.values.toList.map Binary64.text
  let terms := texts.zipIdx.reverse.map fun (text, exponent) => s!"x^{exponent}\t{text}\n"
  "coefficients\t[" ++ ", ".intercalate texts ++ "]\n" ++ String.join terms ++
    (if options.query then s!"query\t{coefficients.query}\n" else "") ++
    (if options.check then s!"{checkLine coefficients}\n" else "")

theorem join_termLines (h : coefficients.values.size = degree.termCount) :
    String.join ((termLines coefficients).map fun line => s!"{line}\n") =
      String.join ((coefficients.values.toList.map Binary64.text).zipIdx.reverse.map
        fun (text, exponent) => s!"x^{exponent}\t{text}\n") := by
  rw [termLines, Coefficients.descending, Coefficients.ascending, List.zipIdx_map,
    ← List.map_reverse, ← List.map_reverse, List.map_map, List.map_map, List.map_map]
  congr 1
  apply List.map_congr_left
  rintro ⟨value, exponent⟩ hmem
  have hlt : exponent < degree.termCount := by
    rw [List.mem_reverse] at hmem
    have hlt := List.snd_lt_of_mem_zipIdx hmem
    rwa [Array.length_toList, h] at hlt
  simp only [Function.comp_apply, Prod.map_apply, id, Degree.toNat_ofNat_of_lt_termCount hlt]
  rfl

theorem join_optional (asked : Bool) (line : String) :
    String.join ((if asked then [line] else []).map fun line => s!"{line}\n") =
      if asked then s!"{line}\n" else "" := by
  cases asked with
  | true => exact String.join_cons.trans String.append_empty
  | false => rfl

theorem join_lines (h : coefficients.values.size = degree.termCount) :
    String.join ((options.lines coefficients).map fun line => s!"{line}\n") =
      options.printed coefficients := by
  have hlist : s!"{listLine coefficients}\n" = "coefficients\t[" ++
      ", ".intercalate (coefficients.values.toList.map Binary64.text) ++ "]\n" :=
    String.append_assoc
  rw [lines, List.map_append, List.map_append, List.map_cons, String.join_append,
    String.join_append, String.join_cons, join_optional, join_optional, hlist, join_termLines h]
  rfl

/-! ## The whole command -/

theorem Collects.output_eq (h : options.Collects degree coefficients) :
    (Command.collect options).run =
      ⟨0, options.printed coefficients, successLog degree, ""⟩ := by
  simp only [Command.run, Command.lines, Command.log, h.run_eq, h.log_eq, join_lines h.size_eq]

theorem head?_toList_append {first second : String} {c : Char} (h : first.toList.head? = some c) :
    (first ++ second).toList.head? = some c := by
  rw [String.toList_append, List.head?_append, h, Option.some_or]

theorem exists_digit_head?_toString (n : Nat) :
    ∃ digit : Char, digit.isDigit = true ∧ (toString n).toList.head? = some digit := by
  obtain ⟨digit, rest, hdigits⟩ := List.exists_cons_of_ne_nil (@Nat.toDigits_ne_nil n 10)
  refine ⟨digit, @Text.isDigit_of_mem_toDigits n digit (hdigits ▸ List.mem_cons_self), ?_⟩
  rw [Nat.toString_eq_repr, Nat.toList_repr, hdigits, List.head?_cons]

/-- No failure is one of a field that could not be filled. Each starts with another character. -/
theorem Fails.outermost_ne {failure : Failure} {record? : Option LogRecord}
    (h : options.Fails failure record?) (name : FieldName) :
    failure.outermost ≠ s!"failed to fill field {name.text}" := by
  intro heq
  have hhead : failure.outermost.toList.head? = some 'f' :=
    heq ▸ head?_toList_append rfl
  cases h with
  | refused hdegree =>
      have herror : options.settings.banner.toList.head? = some 'E' :=
        head?_toList_append (head?_toList_append (head?_toList_append rfl))
      exact absurd (hhead.symm.trans herror) (by decide)
  | tooMany hdegree hlength =>
      obtain ⟨digit, hdigit, hcount⟩ := exists_digit_head?_toString options.entries.length
      obtain rfl : 'f' = digit := Option.some.inj (hhead.symm.trans
        (head?_toList_append (head?_toList_append (head?_toList_append hcount))))
      exact absurd hdigit (by decide)
  | unreadable hdegree hlength hentry hresolves hcause hearlier =>
      have hsubmission : "submission failed".toList.head? = some 's' := rfl
      exact absurd (hhead.symm.trans hsubmission) (by decide)

/-- Whether the degree is accepted, there is a field for each entry, and every entry resolves. -/
def Accepted (options : CollectOptions) : Prop :=
  ∃ degree : Degree, Degree.ofText options.settings.bounds options.degree = .ok degree ∧
    options.entries.length ≤ degree.value.toNat + 1 ∧ ∀ entry ∈ options.entries, Resolves entry

theorem Collects.accepted (h : options.Collects degree coefficients) : options.Accepted := by
  refine ⟨degree, h.degree_eq, h.length_le, ?_⟩
  intro entry hentry
  obtain ⟨index, hindex⟩ := List.mem_iff_getElem?.1 hentry
  obtain ⟨value, hvalue, -⟩ := h.entered index entry hindex
  exact resolves_of_coefficientOf hvalue

theorem Fails.not_accepted {failure : Failure} {record? : Option LogRecord}
    (h : options.Fails failure record?) : ¬ options.Accepted := by
  rintro ⟨degree, hdegree, hlength, hresolves⟩
  cases h with
  | refused hrefused =>
      rw [hdegree] at hrefused
      cases hrefused
  | tooMany haccepted hmany =>
      obtain rfl := Except.ok.inj (hdegree.symm.trans haccepted)
      exact absurd hmany (Nat.not_lt.2 hlength)
  | unreadable haccepted hfits hentry hnot hcause hearlier =>
      exact hnot (hresolves _ (List.mem_of_getElem? hentry))

/-- What the command leaves behind for all options. The bounds are those of the settings unless they
are given, and the entries are what stands between commas, none in an empty text. The command
succeeds exactly when the degree is accepted, there is a field for each entry and every entry
resolves; it then prints the coefficients of the entries from the degree down and zeros below them,
whatever the check says, and neither reports nor logs anything but its progress. Otherwise it prints
nothing and reports what is wrong with the degree, or with the number of the entries, or with the
first entry that does not resolve, and never that a field could not be filled. A refused degree
and a bad entry are logged besides. -/
theorem run_collect (options : CollectOptions) :
    let output := (Command.collect options).run
    options.settings.bounds =
      ⟨options.min.getD (if options.legacy then 2 else 3), options.max.getD 1024⟩ ∧
    (options.values = "" → options.entries = []) ∧
    (options.values ≠ "" → ",".intercalate options.entries = options.values ∧
      ∀ entry ∈ options.entries, ',' ∉ entry.toList) ∧
    (output.exitCode = 0 ↔ options.Accepted) ∧
    (output.exitCode = 0 → ∃ degree coefficients, options.Collects degree coefficients ∧
      output.stdout = options.printed coefficients ∧ output.report = "" ∧
      Form.severe output.log = []) ∧
    (output.exitCode ≠ 0 → ∃ failure record?, options.Fails failure record? ∧
      output.exitCode = 1 ∧ output.stdout = "" ∧ output.report = failure.text ∧
      Form.severe output.log = record?.toList ∧
      ∀ name : FieldName, failure.outermost ≠ s!"failed to fill field {name.text}") := by
  intro output
  have hvalues : options.values = "" → options.entries = [] := fun h => by rw [entries, if_pos h]
  refine ⟨bounds_settings options, hvalues, intercalate_entries, ?_⟩
  rcases run_cases options with ⟨failure, record?, hrun, hfails, hlog⟩ | ⟨degree, coefficients, h⟩
  · have houtput : output = ⟨1, "", options.log, failure.text⟩ := by
      simp only [output, Command.run, Command.lines, Command.log, hrun]
    have hcode : ¬ (1 : UInt32) = 0 := by decide
    rw [houtput]
    refine ⟨iff_of_false hcode hfails.not_accepted, fun hzero => absurd hzero hcode, ?_⟩
    exact fun _ => ⟨failure, record?, hfails, rfl, rfl, rfl, hlog, hfails.outermost_ne⟩
  · have houtput : output = ⟨0, options.printed coefficients, successLog degree, ""⟩ := h.output_eq
    rw [houtput]
    refine ⟨iff_of_true rfl h.accepted, ?_, fun hnot => absurd rfl hnot⟩
    exact fun _ => ⟨degree, coefficients, h, rfl, rfl, rfl⟩

/-- A check that finds a zero does not change the exit code, and of two bad entries the one for the
higher exponent is reported. A degree is refused for what is wrong with it, and before anything is
said of the entries. -/
theorem run_collect_of_zero_end_and_bad_entries :
    let options : CollectOptions := ⟨" 2.0 ", "1,,-0", true, none, none, true, true⟩
    let refused : CollectOptions := ⟨"3", "1, x,y", true, none, none, true, true⟩
    let banner := "Error: the degree must be an integer between 3 and 1024"
    options.Accepted ∧
      (Command.collect options).run.stdout =
        "coefficients\t[-0, 0, 1]\nx^2\t1\nx^1\t0\nx^0\t-0\n" ++
          "query\tdegree=2&x%5E0=-0&x%5E1=0&x%5E2=1\ncheck\tx^0 must not be 0\n" ∧
      ¬ refused.Accepted ∧
      (∃ failure record?, refused.Fails failure record? ∧
        (Command.collect refused).run.report = failure.text ∧
        failure.text = "Error: submission failed\n\nCaused by:\n" ++
          "    0: entry for x^2 is invalid: 'x' is not a number\n    1: 'x' is not a number\n") ∧
      (Command.collect ⟨"3", "1,2,3,4,x", false, none, none, true, true⟩).run.report =
        "Error: 5 values given but only 4 fields are shown\n" ∧
      ∀ entered ∈ [("", "no degree was entered"), ("x y", "degree 'x y' is not a number"),
          ("2.5", "degree 2.5 is not an integer"), ("2", "degree 2 is below the minimum of 3"),
          ("1025", "degree 1025 is out of range")],
        (Command.collect ⟨entered.1, "x,,,,,", false, none, none, true, true⟩).run =
          ⟨1, "", [⟨.warning, "degree rejected: " ++ entered.2, [("input", entered.1)]⟩],
            "Error: " ++ banner ++ "\n\nCaused by:\n    " ++ entered.2 ++ "\n"⟩ := by
  intro options refused banner
  obtain ⟨-, -, -, haccepted, -⟩ := run_collect options
  obtain ⟨-, -, -, hrefused, -, hfails⟩ := run_collect refused
  have hcode : ¬ (Command.collect refused).run.exitCode = 0 := by decide +kernel
  obtain ⟨failure, record?, hfailure, -, -, hreport, -⟩ := hfails hcode
  have htext : (Command.collect refused).run.report =
      "Error: submission failed\n\nCaused by:\n" ++
        "    0: entry for x^2 is invalid: 'x' is not a number\n    1: 'x' is not a number\n" := by
    decide +kernel
  refine ⟨haccepted.1 (by decide +kernel), by decide +kernel, fun h => hcode (hrefused.2 h),
    ⟨failure, record?, hfailure, hreport, hreport.symm.trans htext⟩, by decide +kernel, ?_⟩
  decide +kernel

end CoefficientForm.CollectOptions
