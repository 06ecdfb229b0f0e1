-- SUMMARY: The collect command takes back what it printed.
import CoefficientForm.Proofs.Command.Collect
import CoefficientForm.Proofs.Form.Reentry

/-!
# Collecting again

The texts of coefficients hold no comma, so that they fall apart again when they are joined by
commas. A command that is given the degree and the printed coefficients of another, the leading one
first, prints the same as that other one.
-/

namespace CoefficientForm

open Form (Action Reply)

namespace CollectOptions

variable {options : CollectOptions} {degree : Degree} {coefficients : Coefficients}

/-! ## Texts with commas between them -/

theorem comma_notMem_text (x : Binary64) : ',' ∉ x.text.toList := by
  intro hcomma
  rcases Binary64.mem_toList_text hcomma with halphanum | hminus | hpoint
  · exact absurd halphanum (by decide)
  · exact absurd hminus (by decide)
  · exact absurd hpoint (by decide)

theorem splitOn_intercalate_texts (h : coefficients.texts ≠ []) :
    (",".intercalate coefficients.texts).toList.splitOn ',' =
      coefficients.texts.map String.toList := by
  rw [String.toList_intercalate]
  apply List.splitOn_intercalate
  · intro chars hchars
    obtain ⟨text, htext, rfl⟩ := List.mem_map.1 hchars
    obtain ⟨value, -, rfl⟩ := List.mem_map.1 htext
    exact comma_notMem_text value
  · exact fun hnil => h (List.map_eq_nil_iff.1 hnil)

/-- What is joined is not taken for an empty text, since no coefficient has an empty one. -/
theorem intercalate_texts_ne_empty (h : coefficients.texts ≠ []) :
    ",".intercalate coefficients.texts ≠ "" := by
  intro hempty
  have hsplit := splitOn_intercalate_texts h
  rw [hempty] at hsplit
  have hnil : [] ∈ coefficients.texts.map String.toList := by
    rw [← hsplit]
    exact List.mem_singleton_self []
  obtain ⟨text, htext, hchars⟩ := List.mem_map.1 hnil
  obtain ⟨value, -, rfl⟩ := List.mem_map.1 htext
  exact value.text_ne_empty (String.toList_eq_nil_iff.1 hchars)

/-! ## The same coefficients again -/

/-- The same options, with the degree and the coefficients given as they are printed. -/
def again (options : CollectOptions) (degree : Degree) (coefficients : Coefficients) :
    CollectOptions :=
  { options with degree := degree.text, values := ",".intercalate coefficients.texts }

theorem entries_again (h : coefficients.texts ≠ []) :
    (options.again degree coefficients).entries = coefficients.texts := by
  rw [entries, again, if_neg (intercalate_texts_ne_empty h), splitOn_intercalate_texts h,
    List.map_map]
  simp only [Function.comp_def, String.ofList_toList, List.map_id']

theorem Collects.isFinite (h : options.Collects degree coefficients) :
    ∀ value ∈ coefficients.values, value.isFinite = true := by
  obtain ⟨form, hfilled, -⟩ := exists_filled_run_eq h.degree_eq h.length_le
  have hsubmit := hfilled.submit_eq_ok_iff.2 h
  exact fun _ => hfilled.shows.isFinite_of_submit hsubmit

theorem Collects.again (h : options.Collects degree coefficients) :
    (options.again degree coefficients).Collects degree coefficients := by
  have htexts : coefficients.texts.length = degree.termCount :=
    coefficients.length_texts.trans h.size_eq
  have hentries : (options.again degree coefficients).entries = coefficients.texts := by
    apply entries_again
    intro hnil
    rw [hnil] at htexts
    cases htexts
  have hlength : (options.again degree coefficients).entries.length = degree.termCount := by
    rw [hentries, htexts]
  obtain ⟨hmin, hmax⟩ := Degree.bounds_of_ofText h.degree_eq
  refine ⟨Degree.ofText_text hmin hmax, hlength.le, h.size_eq, ?_, ?_⟩
  · intro index entry hentry
    have hindex : index < degree.termCount := hlength ▸ (List.getElem?_eq_some_iff.1 hentry).1
    rw [hentries, Coefficients.getElem?_texts h.size_eq hindex, Option.map_eq_some_iff] at hentry
    obtain ⟨value, hvalue, rfl⟩ := hentry
    exact ⟨value, coefficientOf_text (h.isFinite value (Array.mem_of_getElem? hvalue)), hvalue⟩
  · intro exponent hbelow
    omega

end CollectOptions

/-! ## Entered again -/

/-- What was submitted or printed can be entered again. Whatever was done to a form, if it submits
coefficients then a new form with the same settings accepts the text of its degree, takes the texts
of the coefficients in the order of its fields, and submits the same coefficients with all their
bits. And a command that succeeds prints coefficients such that the same command, given these in
place of its entries and their degree in place of its own, leaves behind exactly the same. -/
theorem reentered_in_form_and_command :
    (∀ (settings : Settings) (actions : List Action) (degree : Degree)
      (coefficients : Coefficients),
      let form := (Form.empty settings).after actions
      form.degree = some degree → form.submit = .ok coefficients →
        let opened := (Form.empty settings).after [.typeDegree degree.text, .go]
        let fills := (opened.slots.zip coefficients.texts).map fun (name, text) =>
          Action.enter name text
        let again := [Action.typeDegree degree.text, .go] ++ fills ++ [Action.submit]
        ((Form.empty settings).run again).map Form.Response.reply =
          [Reply.done, .degree (.ok degree)] ++
            List.replicate (degree.value.toNat + 1) (Reply.entered (.ok ())) ++
            [Reply.submitted (.ok coefficients)]) ∧
    ∀ options : CollectOptions, (Command.collect options).run.exitCode = 0 →
      ∃ degree coefficients, options.Collects degree coefficients ∧
        (Command.collect options).run.stdout = options.printed coefficients ∧
        (Command.collect { options with
          degree := degree.text, values := ",".intercalate coefficients.texts }).run =
          (Command.collect options).run := by
  constructor
  · intro settings actions degree coefficients form hdegree hsubmit
    have hsettings : form.settings = settings := Form.settings_after (Form.empty settings) actions
    obtain ⟨shown, hshows⟩ :=
      (Form.consistent_after_empty settings actions).shows_of_submit_eq_ok hsubmit
    obtain rfl : degree = shown := Option.some.inj (hdegree.symm.trans hshows.degree_eq)
    exact Form.run_of_texts (hsettings ▸ hshows.min_le) (hsettings ▸ hshows.le_max)
      (hshows.submit_eq_ok_iff.1 hsubmit).1 fun _ => hshows.isFinite_of_submit hsubmit
  · intro options hcode
    rcases options.run_cases with ⟨_, _, hrun, -⟩ | ⟨degree, coefficients, hcollects⟩
    · simp only [Command.run, Command.lines, hrun] at hcode
      cases hcode
    · refine ⟨degree, coefficients, hcollects, by rw [hcollects.output_eq], ?_⟩
      exact hcollects.again.output_eq.trans hcollects.output_eq.symm

/-- A negative zero, the smallest double and the largest one are submitted again as they were, and a
command that left a field blank prints the same when the zero is given. -/
theorem reentered_of_zero_and_ends :
    let settings : Settings := ⟨⟨2, 4⟩, true, true⟩
    let form := (Form.empty settings).after [.typeDegree "2e0", .go, .enter ⟨2⟩ "-0",
      .enter ⟨1⟩ "5e-324", .enter ⟨0⟩ "1.7976931348623157e308"]
    let coefficients : Coefficients := ⟨#[⟨false, 0x7FEFFFFFFFFFFFFF, by decide⟩,
      ⟨false, 1, by decide⟩, .zero true]⟩
    let opened := (Form.empty settings).after [.typeDegree "2", .go]
    let fills := (opened.slots.zip coefficients.texts).map fun (name, text) =>
      Action.enter name text
    let options : CollectOptions := ⟨"2e0", "1,", false, some 2, none, true, true⟩
    form.submit = .ok coefficients ∧
      ((Form.empty settings).run ([Action.typeDegree "2", .go] ++ fills ++ [Action.submit])).map
          Form.Response.reply =
        [.done, .degree (.ok ⟨2⟩), .entered (.ok ()), .entered (.ok ()), .entered (.ok ()),
          .submitted (.ok coefficients)] ∧
      ∃ degree coefficients, options.Collects degree coefficients ∧
        (Command.collect { options with
          degree := degree.text, values := ",".intercalate coefficients.texts }).run =
          (Command.collect options).run := by
  intro settings form coefficients opened fills options
  obtain ⟨hform, hcommand⟩ := reentered_in_form_and_command
  have hsubmit : form.submit = .ok coefficients := by decide +kernel
  obtain ⟨degree, collected, hcollects, -, hsame⟩ := hcommand options (by decide +kernel)
  exact ⟨hsubmit, hform settings _ ⟨2⟩ coefficients (by decide +kernel) hsubmit, degree, collected,
    hcollects, hsame⟩

end CoefficientForm
