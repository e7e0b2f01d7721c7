import SourceCritic.Proofs.Rule.Bodies
import SourceCritic.Proofs.Rule.Grades

/-!
# Joined texts

If two texts are put one behind the other with a `'\n'` between them, no problem of either of them
disappears: whatever a rule reports in one of the texts, it reports in the joined text with a grade
that is at least as bad.

New matches across the seam may swallow a match of the second text.  The numbers of imports are
compared by exchanging matches one by one, as in `Pattern.LeftmostShortest.length_le`.  Levels that
the first text leaves open can only make the second one deeper.
-/

namespace SourceCritic

namespace Rule

private theorem Size.filledLines_join (first second : List Char) :
    filledLines (first ++ '\n' :: second) = filledLines first + filledLines second := by
  rw [filledLines, Text.lines_append_newline, List.countP_append]
  rfl

/-! ## Nesting -/

namespace Nesting

/-- More levels are open, or have been open, than in another depth. -/
structure Depth.IsWithin (depth other : Depth) : Prop where
  current : depth.current ≤ other.current
  largest : depth.largest ≤ other.largest

private theorem Depth.IsWithin.next
    {depth other : Depth} (within : depth.IsWithin other) (line : List Char) :
    (depth.next line).IsWithin (other.next line) := by
  have currentLe := within.current
  have largestLe := within.largest
  constructor
  · simp only [Depth.next]
    split <;> omega
  · simp only [Depth.next]
    split <;> omega

/-- More levels stay more levels, whatever lines are read next. -/
theorem Depth.IsWithin.foldl
    {depth other : Depth} (within : depth.IsWithin other) (lines : List (List Char)) :
    (lines.foldl Depth.next depth).IsWithin (lines.foldl Depth.next other) := by
  induction lines generalizing depth other with
  | nil => exact within
  | cons line later inductionHypothesis => exact inductionHypothesis (within.next line)

private theorem largest_le_foldl (depth : Depth) (lines : List (List Char)) :
    depth.largest ≤ (lines.foldl Depth.next depth).largest := by
  induction lines generalizing depth with
  | nil => exact Nat.le_refl _
  | cons line later inductionHypothesis =>
      exact Nat.le_trans (Nat.le_max_left _ _) (inductionHypothesis (depth.next line))

/-- The nesting of a joined text is at least that of either part. -/
theorem deepest_le_join (first second : List Char) :
    deepest first ≤ deepest (first ++ '\n' :: second) ∧
      deepest second ≤ deepest (first ++ '\n' :: second) := by
  have joined :
      deepest (first ++ '\n' :: second) =
        ((Text.lines second).foldl Depth.next
          ((Text.lines first).foldl Depth.next { current := 0, largest := 0 })).largest := by
    rw [deepest, Text.lines_append_newline, List.foldl_append]
  rw [joined]
  constructor
  · exact largest_le_foldl _ _
  · have within :
        Depth.IsWithin { current := 0, largest := 0 }
          ((Text.lines first).foldl Depth.next { current := 0, largest := 0 }) :=
      ⟨Nat.zero_le _, Nat.zero_le _⟩
    exact (within.foldl (Text.lines second)).largest

end Nesting

theorem Imports.length_imports_le_join (first second : List Char) :
    (imports first).length ≤ (imports (first ++ '\n' :: second)).length ∧
      (imports second).length ≤ (imports (first ++ '\n' :: second)).length := by
  have statements :=
    isFramed_statement.length_occurrences_le_join isImpartial_statement isOrderly_statement
      first second
  have calls :=
    isFramed_call.length_occurrences_le_join isImpartial_call isOrderly_call first second
  simp only [imports, List.length_map, List.length_append]
  omega

/-! ## Reports on joined texts -/

/-- A rule reports a grade that is at least as bad. -/
private def ReportsWorse
    (rule : Rule) (path : String) (text : List Char) (severity : Severity) : Prop :=
  ∃ worse, severity ≤ worse ∧ Reports rule path text worse

/-- What is graded by a number gets no better when the number gets larger. -/
theorem Rises.join
    {grade? : Nat → Option Severity} (rises : Rises grade?)
    {first second joined : Nat} (bound : first ≤ joined ∧ second ≤ joined)
    {severity : Severity} (graded : grade? first = some severity ∨ grade? second = some severity) :
    ∃ worse, severity ≤ worse ∧ grade? joined = some worse := by
  rcases graded with inFirst | inSecond
  · exact rises first joined severity bound.1 inFirst
  · exact rises second joined severity bound.2 inSecond

private theorem reports_functions_join
    (path : String) (first second : List Char) (severity : Severity)
    (reported :
      Reports .functions path first severity ∨ Reports .functions path second severity) :
    Reports .functions path (first ++ '\n' :: second) severity := by
  rw [reports_functions_iff, reports_functions_iff] at reported
  rw [reports_functions_iff]
  rcases reported with
    ⟨start, stop, body, spanned, isBody, graded⟩ | ⟨start, stop, body, spanned, isBody, graded⟩
  · refine
      ⟨start, stop, body, Functions.isFramed_declaration.hasSpan_join_left second spanned, ?_,
        graded⟩
    rw [List.drop_append_of_le_length spanned.start_le_length]
    exact Functions.body?_append isBody ('\n' :: second)
  · refine
      ⟨first.length + 1 + start, first.length + 1 + stop, body,
        Functions.isFramed_declaration.hasSpan_join_right first spanned, ?_, graded⟩
    have behind :
        (first ++ '\n' :: second).drop (first.length + 1 + start) = second.drop start := by
      rw [← List.drop_drop, ← List.drop_drop, List.drop_left, List.drop_one, List.tail_cons]
    rw [behind]
    exact isBody

private theorem reports_inline_join
    (path : String) (first second : List Char) (severity : Severity)
    (reported : Reports .inline path first severity ∨ Reports .inline path second severity) :
    Reports .inline path (first ++ '\n' :: second) severity := by
  rw [reports_inline_iff, reports_inline_iff] at reported
  rw [reports_inline_iff]
  rcases reported with
    ⟨isModerate, isMarkup, creation, start, stop, spanned⟩ |
      ⟨isModerate, isMarkup, creation, start, stop, spanned⟩
  · exact
      ⟨isModerate, isMarkup, creation, start, stop,
        creation.isFramed_pattern.hasSpan_join_left second spanned⟩
  · exact
      ⟨isModerate, isMarkup, creation, _, _,
        creation.isFramed_pattern.hasSpan_join_right first spanned⟩

/-- What a rule reports in one part, it reports at least as badly in the joined text. -/
theorem reportsWorse_join
    (rule : Rule) (path : String) (first second : List Char) (severity : Severity)
    (reported : Reports rule path first severity ∨ Reports rule path second severity) :
    ReportsWorse rule path (first ++ '\n' :: second) severity := by
  cases rule with
  | size =>
      simp only [ReportsWorse, reports_size_iff] at reported ⊢
      rw [Size.filledLines_join]
      exact Size.rises_severity?.join ⟨by omega, by omega⟩ reported
  | imports =>
      simp only [ReportsWorse, reports_imports_iff] at reported ⊢
      exact Imports.rises_severity?.join (Imports.length_imports_le_join first second) reported
  | nesting =>
      simp only [ReportsWorse, reports_nesting_iff] at reported ⊢
      exact Nesting.rises_severity?.join (Nesting.deepest_le_join first second) reported
  | functions =>
      exact ⟨severity, Nat.le_refl _, reports_functions_join path first second severity reported⟩
  | inline =>
      exact ⟨severity, Nat.le_refl _, reports_inline_join path first second severity reported⟩

end Rule

/-- Joining two texts hides no violation: the joined text has one of the same rule that is at least
as severe. -/
theorem exists_worse_violation_of_join
    {path first second : String} {violation : Violation}
    (reported : violation ∈ analyze path first ∨ violation ∈ analyze path second) :
    ∃ other ∈ analyze path (first ++ "\n" ++ second),
      other.rule = violation.rule ∧ violation.severity ≤ other.severity := by
  have joined : (first ++ "\n" ++ second).toList = first.toList ++ '\n' :: second.toList := by
    simp [String.toList_append]
  obtain ⟨rule, inOne⟩ :
      ∃ rule : Rule,
        violation ∈ rule.check path first.toList ∨ violation ∈ rule.check path second.toList := by
    rcases reported with inFirst | inSecond
    · obtain ⟨rule, member⟩ := (Rule.mem_analyze_iff path first violation).mp inFirst
      exact ⟨rule, Or.inl member⟩
    · obtain ⟨rule, member⟩ := (Rule.mem_analyze_iff path second violation).mp inSecond
      exact ⟨rule, Or.inr member⟩
  have named : violation.rule = rule.name :=
    inOne.elim Rule.rule_of_mem_check Rule.rule_of_mem_check
  obtain ⟨worse, ordered, other, member, rfl⟩ :=
    Rule.reportsWorse_join rule path first.toList second.toList violation.severity
      (inOne.imp (fun member => ⟨violation, member, rfl⟩) (fun member => ⟨violation, member, rfl⟩))
  refine ⟨other, ?_, ?_, ordered⟩
  · rw [Rule.mem_analyze_iff, joined]
    exact ⟨rule, member⟩
  · rw [Rule.rule_of_mem_check member, named]

/-- The brace at the end of the first text swallows the object of the second one. -/
theorem exists_worse_violation_of_join_brace :
    Rule.Inline.Creation.object.violation "a.tsx" 1 ∈ analyze "a.tsx" "\x7b\x7b\x7d\x7d" ∧
      ∃ other ∈ analyze "a.tsx" ("\x7b" ++ "\n" ++ "\x7b\x7b\x7d\x7d"),
        other.rule = "react_inline_creation" ∧ Severity.moderate ≤ other.severity := by
  have reported :
      Rule.Inline.Creation.object.violation "a.tsx" 1 ∈
        analyze "a.tsx" "\x7b\x7b\x7d\x7d" :=
    List.mem_singleton.mpr rfl
  exact ⟨reported, exists_worse_violation_of_join (Or.inr reported)⟩

end SourceCritic
