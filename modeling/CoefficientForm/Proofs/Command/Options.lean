-- SUMMARY: Options are read back from arguments that have the values attached.
import CoefficientForm.Command.Options

/-!
# Reading options

A value that is attached to its option by an equals sign may be any text at all: it may be empty,
look like an option or hold further equals signs. So every list of options that the
specifications admit is given by some arguments.
-/

namespace CoefficientForm.Command

/-- An option as one argument, with its value attached. -/
def GivenOption.argument (given : GivenOption) : String :=
  "--" ++ given.name ++ given.value.elim "" ("=" ++ ·)

/-- Whether an option is among those specified and has a value exactly if it takes one. -/
structure GivenOption.Admitted (specs : List OptionSpec) (given : GivenOption) : Prop where
  name_ne_empty : given.name ≠ ""
  separator_notMem : '=' ∉ given.name.toList
  specified : ∃ spec, specs.find? (·.name == given.name) = some spec ∧
    (spec.kind = .flag ↔ given.value = none)

/-- The characters of an argument behind its hyphens and its name. -/
def attachment (value : Option String) : List Char :=
  value.elim [] ('=' :: ·.toList)

theorem splitAttached_append {name : List Char} (h : '=' ∉ name) (value : Option String) :
    splitAttached (name ++ attachment value) = (String.ofList name, value) := by
  have hall : ∀ c ∈ name, decide (c ≠ '=') = true := by
    intro c hc
    exact decide_eq_true fun heq => h (heq ▸ hc)
  rw [splitAttached, List.takeWhile_append_of_pos hall, List.dropWhile_append_of_pos hall]
  cases value with
  | none => simp [attachment]
  | some value => simp [attachment]

section Reading

variable {specs : List OptionSpec} {given : List GivenOption}

theorem GivenOption.toList_argument (option : GivenOption) :
    option.argument.toList = '-' :: '-' :: (option.name.toList ++ attachment option.value) := by
  cases h : option.value <;> simp [argument, attachment, h]

/-- An option in front of others is read on its own. -/
theorem readOptions_argument_cons {option : GivenOption} (h : option.Admitted specs)
    (rest : List (List Char)) :
    readOptions specs (option.argument.toList :: rest) =
      (readOptions specs rest).map (option :: ·) := by
  obtain ⟨spec, hfind, hkind⟩ := h.specified
  have hsplit := splitAttached_append h.separator_notMem option.value
  rw [String.ofList_toList] at hsplit
  -- With a name behind them the hyphens do not end the options.
  obtain ⟨c, cs, hname⟩ : ∃ c cs, option.name.toList = c :: cs :=
    List.exists_cons_of_ne_nil fun hnil => h.name_ne_empty (String.toList_eq_nil_iff.1 hnil)
  rw [hname, List.cons_append] at hsplit
  rw [GivenOption.toList_argument, hname, List.cons_append, readOptions.eq_def]
  simp only [hsplit, hfind]
  obtain ⟨name, value⟩ := option
  cases hspec : spec.kind with
  | flag =>
      cases hkind.1 hspec
      rfl
  | value anyNext =>
      cases value with
      | none => exact absurd (hkind.2 rfl) (by simp [hspec])
      | some value => rfl

/-- Options are read back from their arguments, in order. -/
theorem readOptions_arguments (h : ∀ option ∈ given, option.Admitted specs) :
    readOptions specs (given.map (·.argument.toList)) = some given := by
  induction given with
  | nil => rfl
  | cons option given ih =>
      rw [List.forall_mem_cons] at h
      rw [List.map_cons, readOptions_argument_cons h.1, ih h.2]
      rfl

theorem optionsOf?_arguments (h : ∀ option ∈ given, option.Admitted specs)
    (hrepeats : respectsRepeats specs given = true) :
    optionsOf? specs (given.map GivenOption.argument) = some given := by
  rw [optionsOf?, List.map_map]
  change (readOptions specs (given.map (·.argument.toList))).filter _ = _
  rw [readOptions_arguments h, Option.filter_some, if_pos hrepeats]

end Reading

end CoefficientForm.Command
