import SourceCritic.Rule

/-!
# Names of the rules

Every violation that a rule reports carries the name of that rule.
-/

namespace SourceCritic.Rule

/-- The name under which the violations of a rule are reported. -/
def name : Rule → String
  | .size => "giant_file"
  | .imports => "import_ceremony"
  | .nesting => "callback_hell"
  | .functions => "complex_function"
  | .inline => "react_inline_creation"

/-- Every rule signs its violations with its name. -/
theorem rule_of_mem_check
    {rule : Rule} {path : String} {text : List Char} {violation : Violation}
    (member : violation ∈ rule.check path text) :
    violation.rule = rule.name := by
  cases rule with
  | size =>
      simp only [check, Size.check] at member
      split at member
      · cases member
      · rw [List.mem_singleton.mp member]
        rfl
  | imports =>
      simp only [check, Imports.check] at member
      split at member
      · cases member
      · rw [List.mem_singleton.mp member]
        rfl
  | nesting =>
      simp only [check, Nesting.check] at member
      split at member
      · cases member
      · rw [List.mem_singleton.mp member]
        rfl
  | functions =>
      obtain ⟨measure, _, reported⟩ := List.mem_filterMap.mp member
      obtain ⟨severity, _, rfl⟩ := Option.map_eq_some_iff.mp reported
      rfl
  | inline =>
      simp only [check, Inline.check] at member
      split at member
      · obtain ⟨creation, _, reported⟩ := List.mem_flatMap.mp member
        obtain ⟨occurrence, _, rfl⟩ := List.mem_map.mp reported
        rfl
      · cases member

theorem mem_analyze_iff (path text : String) (violation : Violation) :
    violation ∈ analyze path text ↔ ∃ rule : Rule, violation ∈ rule.check path text.toList := by
  rw [analyze, List.mem_flatMap]
  constructor
  · rintro ⟨rule, _, reported⟩
    exact ⟨rule, reported⟩
  · rintro ⟨rule, reported⟩
    exact ⟨rule, by cases rule <;> simp [all], reported⟩

end SourceCritic.Rule
