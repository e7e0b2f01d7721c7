import SourceCritic.Proofs.Rule.Names
import SourceCritic.Proofs.Rule.Overlap

/-!
# Grades of the rules

Which grades a rule reports in a text.  Three rules grade a number that is found in the text, and
the grade rises with the number.  The function rule grades the body behind every place where a
declaration fits, and the inline rule reports its only grade if there is a creation anywhere.
-/

namespace SourceCritic.Rule

/-- A rule reports a violation of a grade in a text. -/
def Reports (rule : Rule) (path : String) (text : List Char) (severity : Severity) : Prop :=
  ∃ violation ∈ rule.check path text, violation.severity = severity

/-! ## Rules that grade a number -/

/-- A grade that gets no better when the number gets larger. -/
def Rises (grade? : Nat → Option Severity) : Prop :=
  ∀ (less more : Nat) (severity : Severity),
    less ≤ more → grade? less = some severity →
      ∃ worse, severity ≤ worse ∧ grade? more = some worse

private theorem rises_constant (grade : Option Severity) : Rises fun _ => grade := by
  intro less more severity _ graded
  exact ⟨severity, Nat.le_refl _, graded⟩

section Thresholds

variable {small : Nat → Prop} [DecidablePred small]

/-- A grade still rises if small numbers are given one that is no worse than all others. -/
theorem Rises.step
    {low : Option Severity} {grade? : Nat → Option Severity}
    (closed : ∀ {less more : Nat}, less ≤ more → small more → small less)
    (lowest :
      ∀ severity ∈ low, ∀ number, ∃ worse, severity ≤ worse ∧ grade? number = some worse)
    (rises : Rises grade?) :
    Rises fun number => if small number then low else grade? number := by
  intro less more severity ordered graded
  simp only at graded ⊢
  by_cases moreSmall : small more
  · rw [if_pos (closed ordered moreSmall)] at graded
    exact ⟨severity, Nat.le_refl _, by rw [if_pos moreSmall]; exact graded⟩
  · rw [if_neg moreSmall]
    by_cases lessSmall : small less
    · rw [if_pos lessSmall] at graded
      exact lowest severity graded more
    · rw [if_neg lessSmall] at graded
      exact rises less more severity ordered graded

private theorem rises_moderate_brutal
    (closed : ∀ {less more : Nat}, less ≤ more → small more → small less) :
    Rises fun number => if small number then some .moderate else some .brutal := by
  refine .step closed ?_ (rises_constant (some .brutal))
  intro severity isModerate number
  cases isModerate
  exact ⟨.brutal, by decide, rfl⟩

private theorem Rises.above_none
    {grade? : Nat → Option Severity}
    (closed : ∀ {less more : Nat}, less ≤ more → small more → small less)
    (rises : Rises grade?) :
    Rises fun number => if small number then none else grade? number :=
  .step closed (by simp) rises

end Thresholds

/-- More lines are never graded better. -/
theorem Size.rises_severity? : Rises Size.severity? := by
  have filled :
      Rises fun count =>
        if count < 300 then some .gentle
        else if count < 500 then some .moderate else some .brutal := by
    refine .step (by omega) ?_ (rises_moderate_brutal (by omega))
    intro severity isGentle count
    cases isGentle
    by_cases medium : count < 500
    · exact ⟨.moderate, by decide, by rw [if_pos medium]⟩
    · exact ⟨.brutal, by decide, by rw [if_neg medium]⟩
  exact filled.above_none (by omega)

theorem Imports.rises_severity? : Rises Imports.severity? :=
  .above_none (by omega) (rises_moderate_brutal (by omega))

theorem Nesting.rises_severity? : Rises Nesting.severity? :=
  .above_none (by omega) (rises_moderate_brutal (by omega))

theorem reports_size_iff (path : String) (text : List Char) (severity : Severity) :
    Reports .size path text severity ↔
      Size.severity? (Size.filledLines text) = some severity := by
  simp only [Reports, check, Size.check]
  cases Size.severity? (Size.filledLines text) with
  | none => simp
  | some grade => simp

theorem reports_imports_iff (path : String) (text : List Char) (severity : Severity) :
    Reports .imports path text severity ↔
      Imports.severity? (Imports.imports text).length = some severity := by
  simp only [Reports, check, Imports.check]
  cases Imports.severity? (Imports.imports text).length with
  | none => simp
  | some grade => simp

theorem reports_nesting_iff (path : String) (text : List Char) (severity : Severity) :
    Reports .nesting path text severity ↔
      Nesting.severity? (Nesting.deepest text) = some severity := by
  simp only [Reports, check, Nesting.check]
  cases Nesting.severity? (Nesting.deepest text) with
  | none => simp
  | some grade => simp

/-! ## Rules that look at every place -/

/-- The grade of a declaration with a body. -/
def Functions.bodyGrade? (body : List Char) : Option Severity :=
  Measure.severity?
    { name := [], line := 0, complexity := complexity body, lines := Text.lineCount body }

/-- A violation of the rule on functions stands for a declaration with a body. -/
theorem reports_functions_iff (path : String) (text : List Char) (severity : Severity) :
    Reports .functions path text severity ↔
      ∃ start stop body,
        Functions.declaration.HasSpan text start stop ∧
          Functions.body? (text.drop start) = some body ∧
            Functions.bodyGrade? body = some severity := by
  constructor
  · rintro ⟨violation, member, rfl⟩
    obtain ⟨measure, measured, reported⟩ := List.mem_filterMap.mp member
    obtain ⟨occurrence, found, bodied⟩ := List.mem_filterMap.mp measured
    obtain ⟨start, stop, spanned, rfl⟩ :=
      Functions.isImpartial_declaration.exists_span_of_mem_occurrences found
    obtain ⟨body, isBody, rfl⟩ := Option.map_eq_some_iff.mp bodied
    obtain ⟨severity, graded, rfl⟩ := Option.map_eq_some_iff.mp reported
    exact ⟨start, stop, body, spanned, isBody, graded⟩
  · rintro ⟨start, stop, body, spanned, isBody, graded⟩
    obtain ⟨sooner, found⟩ :=
      Functions.isImpartial_declaration.ofSpan_mem_occurrences Functions.isApart_declaration
        spanned
    obtain ⟨measure, bodied, sameGrade⟩ :
        ∃ measure,
          Functions.Measure.ofOccurrence? (Occurrence.ofSpan text (start, sooner)) =
              some measure ∧
            measure.severity? = Functions.bodyGrade? body :=
      ⟨_, Option.map_eq_some_iff.mpr ⟨body, isBody, rfl⟩, rfl⟩
    obtain ⟨violation, reported, sameSeverity⟩ :
        ∃ violation,
          measure.violation? path = some violation ∧ violation.severity = severity :=
      ⟨_, Option.map_eq_some_iff.mpr ⟨severity, sameGrade.trans graded, rfl⟩, rfl⟩
    have measured := List.mem_filterMap.mpr ⟨_, found, bodied⟩
    exact ⟨violation, List.mem_filterMap.mpr ⟨measure, measured, reported⟩, sameSeverity⟩

/-- A violation of the rule on inline creations stands for a match in a markup file. -/
theorem reports_inline_iff (path : String) (text : List Char) (severity : Severity) :
    Reports .inline path text severity ↔
      severity = .moderate ∧ Inline.isMarkup path = true ∧
        ∃ (creation : Inline.Creation) (start stop : Nat),
          creation.pattern.HasSpan text start stop := by
  constructor
  · rintro ⟨violation, member, rfl⟩
    simp only [check, Inline.check] at member
    split at member
    · rename_i isMarkup
      obtain ⟨creation, _, reported⟩ := List.mem_flatMap.mp member
      obtain ⟨occurrence, found, rfl⟩ := List.mem_map.mp reported
      exact
        ⟨rfl, isMarkup, creation,
          (creation.isImpartial_pattern.exists_mem_occurrences_iff text).mp ⟨occurrence, found⟩⟩
    · cases member
  · rintro ⟨rfl, isMarkup, creation, spanned⟩
    obtain ⟨occurrence, found⟩ :=
      (creation.isImpartial_pattern.exists_mem_occurrences_iff text).mpr spanned
    refine ⟨creation.violation path occurrence.place.line, ?_, rfl⟩
    simp only [check, Inline.check, isMarkup, if_true]
    refine List.mem_flatMap.mpr ⟨creation, ?_, List.mem_map_of_mem found⟩
    cases creation <;> simp

end SourceCritic.Rule
