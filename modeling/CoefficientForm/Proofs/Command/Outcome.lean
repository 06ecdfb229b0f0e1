-- SUMMARY: What the outcome command prints, and how it fails, for all options.
import CoefficientForm.Command.Run
import CoefficientForm.Proofs.Command.Options
import CoefficientForm.Proofs.Report.Presentation

/-!
# Showing an outcome

The command succeeds exactly when the result is the tag of an outcome and an expression is given
for an outcome that is no failure, and only for one. It then prints the summary, the expression and
the intercepts, in this order. Otherwise it prints nothing and says what is wrong with the options.

Intercepts do not count. Those of a failure are not refused, as its expression would be: they are
dropped before the report is checked.
-/

namespace CoefficientForm

/-! ## Pieces of a text -/

namespace Text

/-- Whether pieces stand in a text one behind the other, with anything in between. -/
def InOrder : List (List Char) → List Char → Prop
  | [], _ => True
  | piece :: rest, cs => ∃ before after, cs = before ++ piece ++ after ∧ InOrder rest after

variable {piece cs : List Char} {pieces : List (List Char)}

theorem InOrder.append_left (h : InOrder pieces cs) (before : List Char) :
    InOrder pieces (before ++ cs) := by
  cases pieces with
  | nil => trivial
  | cons piece rest =>
      obtain ⟨first, after, rfl, hrest⟩ := h
      exact ⟨before ++ first, after, by simp only [List.append_assoc], hrest⟩

theorem InOrder.append_right (h : InOrder pieces cs) (after : List Char) :
    InOrder pieces (cs ++ after) := by
  induction pieces generalizing cs with
  | nil => trivial
  | cons piece rest ih =>
      obtain ⟨before, behind, rfl, hrest⟩ := h
      exact ⟨before, behind ++ after, by simp only [List.append_assoc], ih hrest⟩

theorem InOrder.cons (h : InOrder pieces cs) (piece : List Char) :
    InOrder (piece :: pieces) (piece ++ cs) :=
  ⟨[], cs, rfl, h⟩

theorem inOrder_intercalate (separator : List Char) (pieces : List (List Char)) :
    InOrder pieces (separator.intercalate pieces) := by
  induction pieces with
  | nil => trivial
  | cons piece rest ih =>
      cases rest with
      | nil => exact ⟨[], [], by simp, trivial⟩
      | cons next rest =>
          rw [List.intercalate_cons_cons, List.append_assoc]
          exact (ih.append_left separator).cons piece

theorem InOrder.subset (h : InOrder pieces cs) (hmem : piece ∈ pieces) : piece ⊆ cs := by
  induction pieces generalizing cs with
  | nil => cases hmem
  | cons first rest ih =>
      obtain ⟨before, after, rfl, hrest⟩ := h
      rcases List.mem_cons.1 hmem with rfl | hmem
      · exact List.subset_append_of_subset_left _ (List.subset_append_right before piece)
      · exact List.subset_append_of_subset_right _ (ih hrest hmem)

end Text

theorem Outcome.ofTag_tag (outcome : Outcome) : ofTag outcome.tag = .ok outcome := by
  rw [ofTag, ofTag?_tag]

namespace OutcomeOptions

open Command (Failure GivenOption)

variable {options : OutcomeOptions} {outcome : Outcome} {failure : Failure}

/-! ## The arguments for the options -/

def given (options : OutcomeOptions) : List GivenOption :=
  ⟨"result", some options.result⟩ ::
    (options.expression.toList.map fun expression => ⟨"expression", some expression⟩) ++
    options.intercepts.map fun intercept => ⟨"intercept", some intercept⟩

def arguments (options : OutcomeOptions) : List String :=
  "outcome" :: options.given.map GivenOption.argument

theorem admitted_of_mem_given {option : GivenOption} (h : option ∈ options.given) :
    option.Admitted Command.outcomeSpecs := by
  simp only [given, List.cons_append, List.mem_cons, List.mem_append, List.mem_map] at h
  rcases h with rfl | ⟨expression, -, rfl⟩ | ⟨intercept, -, rfl⟩
  all_goals exact ⟨by simp, by simp, _, rfl, by simp⟩

theorem valuesOf_given (options : OutcomeOptions) :
    Command.valuesOf options.given "result" = [options.result] ∧
      Command.valuesOf options.given "expression" = options.expression.toList ∧
      Command.valuesOf options.given "intercept" = options.intercepts := by
  simp [Command.valuesOf, given, List.filterMap_append, List.filterMap_map]

theorem respectsRepeats_given (options : OutcomeOptions) :
    Command.respectsRepeats Command.outcomeSpecs options.given = true := by
  obtain ⟨result, expression, intercepts⟩ := options
  cases expression <;>
    simp [Command.respectsRepeats, Command.outcomeSpecs, given, List.filter_map, Function.comp_def]

/-- Whatever the options are, there are arguments that give them. -/
theorem ofArguments?_arguments (options : OutcomeOptions) :
    Command.ofArguments? options.arguments = some (.outcome options) := by
  have hgiven := Command.optionsOf?_arguments (fun _ => admitted_of_mem_given)
    options.respectsRepeats_given
  obtain ⟨hresult, hexpression, hintercepts⟩ := options.valuesOf_given
  simp [Command.ofArguments?, arguments, hgiven, Command.outcomeOf?, Command.valueOf?, hresult,
    hexpression, hintercepts]

/-! ## Success -/

/-- Whether the result is the tag of the outcome, and an expression is given unless the outcome is
a failure, but not otherwise. -/
structure Admits (options : OutcomeOptions) (outcome : Outcome) : Prop where
  tag_eq : outcome.tag = options.result
  isSome_eq : options.expression.isSome = !outcome.isFailure

/-- The summary and, if an expression is given, a line for it and one for the intercepts. -/
def display (options : OutcomeOptions) (outcome : Outcome) : String :=
  match options.expression with
  | none => s!"RESULT: {outcome.sentence}\n"
  | some expression =>
    s!"RESULT: {outcome.sentence}\nExpression: {expression}\nIntercepts: " ++
      ", ".intercalate options.intercepts ++ "\n"

/-- What the options ask to be shown: the summary, the expression and the intercepts. -/
def supplied (options : OutcomeOptions) (outcome : Outcome) : List (List Char) :=
  outcome.sentence.toList :: (options.expression.toList ++ options.intercepts).map String.toList

theorem Admits.isFailure_eq (h : options.Admits outcome) :
    outcome.isFailure = !options.expression.isSome := by
  rw [h.isSome_eq, Bool.not_not]

theorem Admits.run_eq (h : options.Admits outcome) :
    options.run = .ok [(options.report outcome).text] := by
  have hcheck : (options.report outcome).check = .ok () := by
    rw [report, Report.check, h.isFailure_eq]
    cases options.expression <;> rfl
  rw [run, ← h.tag_eq, outcome.ofTag_tag]
  simp only [hcheck]

theorem Admits.text_report (h : options.Admits outcome) :
    (options.report outcome).text ++ "\n" = options.display outcome := by
  apply String.toList_injective
  rw [report, Report.text, h.isFailure_eq, display]
  cases options.expression with
  | none => rfl
  | some expression =>
      change (s!"RESULT: {outcome.sentence}" ++ (s!"\nExpression: {expression}\nIntercepts: " ++
        ", ".intercalate options.intercepts) ++ "\n").toList = _
      simp [toString]

theorem Admits.output_eq (h : options.Admits outcome) :
    (Command.outcome options).run = ⟨0, options.display outcome, [], ""⟩ := by
  rw [← h.text_report]
  simp only [Command.run, Command.lines, Command.log, h.run_eq, List.map_cons, List.map_nil, String.join_cons,
    String.join_nil, String.append_empty, toString]

/-- All that is supplied is displayed, unless there are intercepts without an expression. -/
theorem inOrder_supplied (h : options.expression.isSome ∨ options.intercepts = []) :
    Text.InOrder (options.supplied outcome) (options.display outcome).toList := by
  obtain ⟨result, expression, intercepts⟩ := options
  cases expression with
  | none =>
      obtain rfl : intercepts = [] := by simpa using h
      exact ⟨"RESULT: ".toList, ['\n'], by simp [display, toString], trivial⟩
  | some expression =>
      have hintercepts := Text.inOrder_intercalate ", ".toList (intercepts.map String.toList)
      rw [← String.toList_intercalate] at hintercepts
      have hrest := ((hintercepts.append_right ['\n']).append_left "\nIntercepts: ".toList).cons
        expression.toList
      refine ⟨"RESULT: ".toList, _, ?_, hrest.append_left "\nExpression: ".toList⟩
      simp [display, toString]

/-! ## Failure -/

/-- What can be wrong with the options. -/
inductive Fails (options : OutcomeOptions) : Failure → Prop
  | unknownTag : (∀ outcome : Outcome, outcome.tag ≠ options.result) →
      Fails options ⟨s!"unknown factoring result '{options.result}'", []⟩
  | missing {outcome : Outcome} : outcome.tag = options.result → outcome.isFailure = false →
      options.expression = none →
      Fails options ⟨"invalid factoring result",
        [s!"result '{options.result}' requires a factored expression"]⟩
  | unexpected {outcome : Outcome} : outcome.tag = options.result → outcome.isFailure = true →
      options.expression.isSome →
      Fails options ⟨"invalid factoring result",
        [s!"result '{options.result}' must not carry a factored expression"]⟩

theorem Fails.run_eq (h : options.Fails failure) : options.run = .error failure := by
  cases h with
  | unknownTag hunknown =>
      rw [run, Outcome.ofTag, Outcome.ofTag?_eq_none_iff.2 hunknown]
      rfl
  | @missing outcome htag hfailure hnone =>
      rw [run, ← htag, outcome.ofTag_tag]
      simp only [report, hnone, Option.map_none, Report.check, hfailure]
      rfl
  | @unexpected outcome htag hfailure hsome =>
      obtain ⟨expression, hexpression⟩ := Option.isSome_iff_exists.1 hsome
      rw [run, ← htag, outcome.ofTag_tag]
      simp only [report, hexpression, Option.map_some, Report.check, hfailure]
      rfl

theorem Fails.output_eq (h : options.Fails failure) :
    (Command.outcome options).run = ⟨1, "", [], failure.text⟩ := by
  simp only [Command.run, Command.lines, Command.log, h.run_eq]

/-! ## All options -/

theorem admits_or_fails (options : OutcomeOptions) :
    (∃ outcome, options.Admits outcome) ∨ ∃ failure, options.Fails failure := by
  by_cases hknown : ∃ outcome : Outcome, outcome.tag = options.result
  · obtain ⟨outcome, htag⟩ := hknown
    cases hfailure : outcome.isFailure with
    | false =>
        cases hexpression : options.expression with
        | none => exact .inr ⟨_, .missing htag hfailure hexpression⟩
        | some expression => exact .inl ⟨outcome, htag, by simp [hexpression, hfailure]⟩
    | true =>
        cases hexpression : options.expression with
        | none => exact .inl ⟨outcome, htag, by simp [hexpression, hfailure]⟩
        | some expression => exact .inr ⟨_, .unexpected htag hfailure (by simp [hexpression])⟩
  · exact .inr ⟨_, .unknownTag fun outcome htag => hknown ⟨outcome, htag⟩⟩

theorem exists_admits_iff :
    (∃ outcome, options.Admits outcome) ↔
      options.result ∈ ["full", "quadratic", "partial"] ∧ options.expression.isSome ∨
      options.result ∈ ["not", "error"] ∧ options.expression = none := by
  obtain ⟨result, expression, intercepts⟩ := options
  constructor
  · rintro ⟨outcome, rfl, hexpression⟩
    cases outcome <;> cases expression <;> simp_all [Outcome.isFailure, Outcome.tag]
  · rintro (⟨htag, hsome⟩ | ⟨htag, rfl⟩)
    · simp only [List.mem_cons, List.not_mem_nil, or_false] at htag
      rcases htag with rfl | rfl | rfl
      · exact ⟨.full, rfl, hsome⟩
      · exact ⟨.quadratic, rfl, hsome⟩
      · exact ⟨.partly, rfl, hsome⟩
    · simp only [List.mem_cons, List.not_mem_nil, or_false] at htag
      rcases htag with rfl | rfl
      · exact ⟨.notFactored, rfl, rfl⟩
      · exact ⟨.failed, rfl, rfl⟩

/-- Without an expression the intercepts make no difference. -/
theorem output_of_expression_eq_none (options : OutcomeOptions) (h : options.expression = none) :
    (Command.outcome options).run = (Command.outcome { options with intercepts := [] }).run := by
  simp only [Command.run, Command.lines, Command.log, run, report, h, Option.map_none]

/-- What the command leaves behind for all options, each of which some arguments give. It succeeds
exactly when an expression comes with one of the tags of a full, a quadratic or a partial
factorization or does not come with one of the other two tags. It then prints the summary for the
tag, and all that is supplied in the order given, as long as there are no intercepts without an
expression: those make no difference. Otherwise it prints nothing but what is wrong with the
options. -/
theorem run_outcome (options : OutcomeOptions) :
    let output := (Command.outcome options).run
    Command.ofArguments? options.arguments = some (.outcome options) ∧
    (output.exitCode = 0 ↔
      options.result ∈ ["full", "quadratic", "partial"] ∧ options.expression.isSome ∨
      options.result ∈ ["not", "error"] ∧ options.expression = none) ∧
    (output.exitCode = 0 → ∃ outcome : Outcome, outcome.tag = options.result ∧
      output.stdout = options.display outcome ∧ output.log = [] ∧ output.report = "" ∧
      (options.expression.isSome ∨ options.intercepts = [] →
        Text.InOrder (options.supplied outcome) output.stdout.toList)) ∧
    (output.exitCode ≠ 0 → ∃ failure, options.Fails failure ∧ output = ⟨1, "", [], failure.text⟩) ∧
    (options.expression = none →
      output = (Command.outcome { options with intercepts := [] }).run) := by
  intro output
  have hnone := output_of_expression_eq_none options
  refine ⟨ofArguments?_arguments options, ?_⟩
  rcases admits_or_fails options with ⟨outcome, hadmits⟩ | ⟨failure, hfails⟩
  · have houtput : output = ⟨0, options.display outcome, [], ""⟩ := hadmits.output_eq
    have hcode : output.exitCode = 0 := by rw [houtput]
    refine ⟨iff_of_true hcode (exists_admits_iff.1 ⟨outcome, hadmits⟩), ?_,
      fun hnot => absurd hcode hnot, hnone⟩
    intro _
    rw [houtput]
    exact ⟨outcome, hadmits.tag_eq, rfl, rfl, rfl, inOrder_supplied⟩
  · have houtput : output = ⟨1, "", [], failure.text⟩ := hfails.output_eq
    have hcode : output.exitCode ≠ 0 := by
      rw [houtput]
      exact (by decide : (1 : UInt32) ≠ 0)
    refine ⟨?_, fun hzero => absurd hzero hcode, fun _ => ⟨failure, hfails, houtput⟩, hnone⟩
    rw [← exists_admits_iff]
    exact iff_of_false hcode fun ⟨_, hadmits⟩ => hcode (congrArg Output.exitCode hadmits.output_eq)

/-- An expression that looks like an option and an intercept that holds a comma are displayed, and
the tag must have no capital letter. -/
theorem run_outcome_of_comma_and_capital :
    let options : OutcomeOptions := ⟨"full", some "-x", ["", "a, b"]⟩
    let refused : OutcomeOptions := ⟨"Full", some "-x", []⟩
    options.arguments =
        ["outcome", "--result=full", "--expression=-x", "--intercept=", "--intercept=a, b"] ∧
      Command.ofArguments? options.arguments = some (.outcome options) ∧
      (Command.outcome options).run.stdout =
        "RESULT: The polynomial was fully factored.\nExpression: -x\nIntercepts: , a, b\n" ∧
      Text.InOrder (options.supplied .full) (Command.outcome options).run.stdout.toList ∧
      ∃ failure, refused.Fails failure ∧ (Command.outcome refused).run = ⟨1, "", [], failure.text⟩ ∧
        failure.text = "Error: unknown factoring result 'Full'\n" := by
  intro options refused
  obtain ⟨harguments, -, hshown, -⟩ := run_outcome options
  obtain ⟨-, -, -, hrefused, -⟩ := run_outcome refused
  obtain ⟨outcome, htag, -, -, -, hsupplied⟩ := hshown (by decide +kernel)
  obtain rfl : outcome = .full := by
    cases outcome with
    | full => rfl
    | _ => exact absurd htag (by decide)
  obtain ⟨failure, hfails, houtput⟩ := hrefused (by decide +kernel)
  have hreport : (Command.outcome refused).run.report =
      "Error: unknown factoring result 'Full'\n" := by decide +kernel
  rw [houtput] at hreport
  exact ⟨by decide +kernel, harguments, by decide +kernel, hsupplied (.inl rfl), failure, hfails,
    houtput, hreport⟩

/-- An intercept of a failure is neither displayed nor refused, though an expression is refused. -/
theorem run_outcome_of_intercept_alone :
    let options : OutcomeOptions := ⟨"not", none, ["1"]⟩
    Command.ofArguments? ["outcome", "--result", "not", "--intercept", "1"] =
        some (.outcome options) ∧
      (Command.outcome options).run =
        ⟨0, "RESULT: The polynomial could not be factored.\n", [], ""⟩ ∧
      ¬ Text.InOrder (options.supplied .notFactored) (Command.outcome options).run.stdout.toList ∧
      (Command.outcome { options with expression := some "x" }).run.exitCode = 1 := by
  intro options
  have houtput : (Command.outcome options).run =
      ⟨0, "RESULT: The polynomial could not be factored.\n", [], ""⟩ := by decide +kernel
  refine ⟨by decide +kernel, houtput, ?_, by decide +kernel⟩
  rw [houtput]
  intro hshown
  have hintercept : ['1'] ∈ options.supplied .notFactored := .tail _ (.head _)
  exact absurd (hshown.subset hintercept (List.mem_singleton_self '1')) (by decide +kernel)

end OutcomeOptions

end CoefficientForm
