import SourceCritic.Proofs.Rule.Names
import SourceCritic.Proofs.Rule.Sites
import SourceCritic.Proofs.Text.Numbering

/-!
# Line numbers of violations

Every violation has the number of a line of the text.  The rules that report single places number
the line on which the place is: the line with that number reads `function` at the byte where the
declaration begins, or `'{'` at the byte where the creation begins, and no other line has this
byte.  The rules that report a text as a whole give its first line, or the number of its filled
lines, which is not larger than the number of all lines.

Places are reported from left to right, so their numbers do not decrease.
-/

namespace SourceCritic

namespace Rule

/-! ## The violations of one rule -/

private theorem eq_of_name_eq {rule other : Rule} (same : other.name = rule.name) :
    other = rule := by
  revert same
  cases rule <;> cases other <;> decide

private theorem filter_check (rule other : Rule) (path : String) (text : List Char) :
    ((other.check path text).filter fun violation => violation.rule = rule.name) =
      if other = rule then rule.check path text else [] := by
  by_cases same : other = rule
  · rw [if_pos same, same, List.filter_eq_self]
    intro violation member
    rw [rule_of_mem_check member, decide_eq_true_eq]
  · rw [if_neg same, List.filter_eq_nil_iff]
    intro violation member
    rw [rule_of_mem_check member, decide_eq_true_eq]
    intro sameName
    exact same (eq_of_name_eq sameName)

/-- The violations with the name of a rule are the ones that the rule reports. -/
theorem filter_analyze (rule : Rule) (path text : String) :
    ((analyze path text).filter fun violation => violation.rule = rule.name) =
      rule.check path text.toList := by
  rw [analyze, List.filter_flatMap]
  simp only [filter_check]
  cases rule <;> simp [all]

/-- The numbers of the lines do not decrease. -/
def InLineOrder (violations : List Violation) : Prop :=
  violations.Pairwise fun first second => first.lineNumber ≤ second.lineNumber

/-! ## Declarations -/

namespace Functions

/-- The line of a violation is the one on which its declaration begins. -/
theorem Site.IsIn.isAnchored
    {text : List Char} {site : Site} (isIn : site.IsIn text) (path : String) :
    Text.IsAnchored text "function".toList site.start (site.violation path).lineNumber := by
  obtain ⟨gap, secondGap, rest, shape, _⟩ := isIn.declared
  rw [shape]
  exact Text.isAnchored_append site.before _ (by decide) (by decide)

private theorem Site.IsIn.lineNumber_le
    {text : List Char} {site later : Site}
    (isIn : site.IsIn text) (laterIsIn : later.IsIn text) (less : site.start < later.start)
    (path : String) :
    (site.violation path).lineNumber ≤ (later.violation path).lineNumber := by
  obtain ⟨_, _, _, shape, _⟩ := isIn.declared
  obtain ⟨_, _, _, laterShape, _⟩ := laterIsIn.declared
  obtain ⟨between, sameBefore, _⟩ :=
    Text.exists_of_length_bytes_le (shape.symm.trans laterShape) (Nat.le_of_lt less)
  exact Text.lineCount_le_of_prefix ⟨between, sameBefore.symm⟩

theorem inLineOrder_reported (path : String) (text : List Char) :
    InLineOrder ((reported text).map (Site.violation path)) := by
  rw [InLineOrder, List.pairwise_map]
  apply (pairwise_start_reported text).imp_of_mem
  intro first second firstMember secondMember less
  have firstIsIn := ((mem_reported_iff text first).mp firstMember).1
  have secondIsIn := ((mem_reported_iff text second).mp secondMember).1
  exact firstIsIn.lineNumber_le secondIsIn less path

end Functions

/-! ## Creations -/

namespace Inline.Creation

/-- The byte of a text at which an occurrence begins. -/
def startIn (text : List Char) (occurrence : Occurrence) : Nat :=
  (Text.bytes (text.take occurrence.place.offset)).length

/-- The violation for an occurrence of a kind of creation. -/
def violationAt (path : String) (creation : Creation) (occurrence : Occurrence) : Violation :=
  creation.violation path occurrence.place.line

/-- The violations for a kind of creation. -/
def reports (path : String) (text : List Char) (creation : Creation) : List Violation :=
  if isMarkup path then
    (creation.pattern.occurrences text).map (creation.violationAt path)
  else
    []

private theorem exists_brace_of_matches
    {creation : Creation} {matched : List Char}
    (matching : Matches creation.pattern.items matched) :
    ∃ rest, matched = ['{'] ++ rest := by
  have opening : ∃ items, creation.pattern.items = .one (.literal '{') :: items := by
    cases creation with
    | object => exact ⟨_, rfl⟩
    | function => exact ⟨_, rfl⟩
  obtain ⟨items, shape⟩ := opening
  rw [shape, matches_one_iff] at matching
  obtain ⟨head, rest, rfl, belongs, _⟩ := matching
  have isBrace : head = '{' := by
    simpa [CharClass.contains] using belongs
  exact ⟨rest, by rw [isBrace, List.singleton_append]⟩

/-- A creation is reported on the line of its first brace. -/
theorem isAnchored_of_mem_occurrences
    {creation : Creation} {text : List Char} {occurrence : Occurrence}
    (member : occurrence ∈ creation.pattern.occurrences text) (path : String) :
    Text.IsAnchored text ['{'] (startIn text occurrence)
      (creation.violationAt path occurrence).lineNumber := by
  obtain ⟨before, matched, after, rfl, rfl, spans⟩ :=
    creation.isImpartial_pattern.exists_between_of_mem text member
  obtain ⟨rest, rfl⟩ := exists_brace_of_matches spans.1
  have front :
      (before ++ (['{'] ++ rest) ++ after).take before.length = before := by
    rw [List.append_assoc, List.take_left]
  have start :
      startIn (before ++ (['{'] ++ rest) ++ after) (.between before (['{'] ++ rest) after) =
        (Text.bytes before).length :=
    congrArg (fun part => (Text.bytes part).length) front
  rw [start, List.append_assoc, List.append_assoc]
  exact Text.isAnchored_append before (rest ++ after) (by decide) (by decide)

theorem context_of_mem_reports
    {creation : Creation} {path : String} {text : List Char} {violation : Violation}
    (member : violation ∈ creation.reports path text) :
    violation.context = .object [("type", .string creation.word)] := by
  rw [reports] at member
  split at member
  · obtain ⟨occurrence, _, rfl⟩ := List.mem_map.mp member
    rfl
  · cases member

theorem inLineOrder_reports (path : String) (text : List Char) (creation : Creation) :
    InLineOrder (creation.reports path text) := by
  rw [reports]
  split
  · rw [InLineOrder, List.pairwise_map]
    apply (creation.isImpartial_pattern.pairwise_offset text).imp_of_mem
    intro first second firstMember secondMember less
    obtain ⟨before, matched, after, shape, rfl, _⟩ :=
      creation.isImpartial_pattern.exists_between_of_mem text firstMember
    obtain ⟨laterBefore, laterMatched, laterAfter, laterShape, rfl, _⟩ :=
      creation.isImpartial_pattern.exists_between_of_mem text secondMember
    rw [List.append_assoc] at shape laterShape
    have isPrefix : before <+: laterBefore :=
      List.prefix_of_prefix_length_le ⟨_, shape.symm⟩ ⟨_, laterShape.symm⟩ (Nat.le_of_lt less)
    exact Text.lineCount_le_of_prefix isPrefix
  · exact .nil

theorem check_eq_reports (path : String) (text : List Char) :
    check path text =
      Creation.object.reports path text ++ Creation.function.reports path text := by
  rw [check, reports, reports]
  split
  · rw [List.flatMap_cons, List.flatMap_singleton]
    rfl
  · rfl

end Inline.Creation

/-! ## All violations -/

private theorem Size.count_of_severity?
    {count : Nat} {severity : Severity} (graded : Size.severity? count = some severity) :
    200 ≤ count := by
  rw [Size.severity?] at graded
  split at graded
  · cases graded
  · omega

/-- A violation is on a line of the text. -/
private def IsOnSomeLine (text : List Char) (violation : Violation) : Prop :=
  1 ≤ violation.lineNumber ∧ violation.lineNumber ≤ (Text.lines text).length

private theorem isOnSomeLine_of_isAnchored
    {text word : List Char} {offset : Nat} {violation : Violation}
    (isAnchored : Text.IsAnchored text word offset violation.lineNumber) :
    IsOnSomeLine text violation := by
  obtain ⟨_, _, found, _⟩ := isAnchored.reads
  exact Text.bounds_of_line? found

private theorem isOnSomeLine_of_first
    {violation : Violation} (isFirst : violation.lineNumber = 1) (text : List Char) :
    IsOnSomeLine text violation := by
  have positive := List.length_pos_of_ne_nil (Text.lines_ne_nil text)
  rw [IsOnSomeLine, isFirst]
  exact ⟨Nat.le_refl 1, positive⟩

/-- No rule names a line that the text does not have. -/
theorem isOnSomeLine_of_mem_check
    {rule : Rule} {path : String} {text : List Char} {violation : Violation}
    (member : violation ∈ rule.check path text) :
    IsOnSomeLine text violation := by
  cases rule with
  | size =>
      simp only [check, Size.check] at member
      split at member
      · cases member
      · next severity graded =>
          rw [List.mem_singleton.mp member]
          have enough := Size.count_of_severity? graded
          have positive : 1 ≤ Size.filledLines text := by
            omega
          exact ⟨positive, List.countP_le_length⟩
  | imports =>
      simp only [check, Imports.check] at member
      split at member
      · cases member
      · rw [List.mem_singleton.mp member]
        exact isOnSomeLine_of_first rfl text
  | nesting =>
      simp only [check, Nesting.check] at member
      split at member
      · cases member
      · rw [List.mem_singleton.mp member]
        exact isOnSomeLine_of_first rfl text
  | functions =>
      rw [check, Functions.check_eq_map_reported] at member
      obtain ⟨site, reported, rfl⟩ := List.mem_map.mp member
      have isIn := ((Functions.mem_reported_iff text site).mp reported).1
      exact isOnSomeLine_of_isAnchored (isIn.isAnchored path)
  | inline =>
      simp only [check, Inline.check] at member
      split at member
      · obtain ⟨creation, _, created⟩ := List.mem_flatMap.mp member
        obtain ⟨occurrence, found, rfl⟩ := List.mem_map.mp created
        exact isOnSomeLine_of_isAnchored
          (Inline.Creation.isAnchored_of_mem_occurrences found path)
      · cases member

end Rule

open Rule Rule.Inline in
/-- Every violation is on a line of the text.  The violations of the function rule belong to the
declarations that are reported, one by one and in line order, and each of them is on the only line
that reads `function` at the byte where its declaration begins.  The violations of the inline
creation rule are the ones for objects, in line order, and then the ones for functions, in line
order, and each of them is on the only line that reads `'{'` at the byte where its occurrence
begins. -/
theorem analyze_numbers_lines (path text : String) :
    (∀ violation ∈ analyze path text,
        1 ≤ violation.lineNumber ∧
          violation.lineNumber ≤ (Text.lines text.toList).length) ∧
      (((analyze path text).filter fun violation => violation.rule = "complex_function") =
          (Functions.reported text.toList).map (Functions.Site.violation path) ∧
        (∀ site ∈ Functions.reported text.toList,
          Text.IsAnchored text.toList "function".toList site.start
            (site.violation path).lineNumber) ∧
        InLineOrder ((Functions.reported text.toList).map (Functions.Site.violation path))) ∧
      ((analyze path text).filter fun violation => violation.rule = "react_inline_creation") =
          Creation.object.reports path text.toList ++
            Creation.function.reports path text.toList ∧
        ∀ creation : Creation,
          (∀ occurrence ∈ creation.pattern.occurrences text.toList,
            Text.IsAnchored text.toList ['{'] (Creation.startIn text.toList occurrence)
              (creation.violationAt path occurrence).lineNumber) ∧
          (∀ violation ∈ creation.reports path text.toList,
            violation.context = .object [("type", .string creation.word)]) ∧
          InLineOrder (creation.reports path text.toList) := by
  refine ⟨?_, ⟨?_, ?_, ?_⟩, ?_, ?_⟩
  · intro violation member
    obtain ⟨rule, reported⟩ := (mem_analyze_iff path text violation).mp member
    exact isOnSomeLine_of_mem_check reported
  · rw [← Functions.check_eq_map_reported]
    exact filter_analyze .functions path text
  · intro site member
    exact ((Functions.mem_reported_iff text.toList site).mp member).1.isAnchored path
  · exact Functions.inLineOrder_reported path text.toList
  · rw [← Creation.check_eq_reports]
    exact filter_analyze .inline path text
  · intro creation
    refine ⟨?_, ?_, ?_⟩
    · intro occurrence member
      exact Creation.isAnchored_of_mem_occurrences member path
    · intro violation member
      exact Creation.context_of_mem_reports member
    · exact Creation.inLineOrder_reports path text.toList creation

/-- An object on the second line, at the fourth byte but behind two characters. -/
theorem analyze_numbers_lines_accented :
    Text.IsAnchored "é\n\x7b\x7b\x7d\x7d".toList ['{'] 3 2 := by
  obtain ⟨_, _, _, created⟩ := analyze_numbers_lines "a.jsx" "é\n\x7b\x7b\x7d\x7d"
  have anchored :=
    (created .object).1 ⟨⟨2, 2⟩, "\x7b\x7b\x7d\x7d".toList, 4⟩ (by decide)
  have start :
      Rule.Inline.Creation.startIn "é\n\x7b\x7b\x7d\x7d".toList
          ⟨⟨2, 2⟩, "\x7b\x7b\x7d\x7d".toList, 4⟩ = 3 := by
    rw [Rule.Inline.Creation.startIn, Text.bytes_eq_flatMap]
    decide
  rw [start] at anchored
  exact anchored

end SourceCritic
