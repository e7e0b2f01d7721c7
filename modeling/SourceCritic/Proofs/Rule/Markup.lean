import Mathlib
import SourceCritic.Proofs.FileSystem.Stems
import SourceCritic.Proofs.Rule.Names

/-!
# What the path of a file is used for

A rule puts the path of the file into its violations.  Nothing else depends on the path, except that
the rule about markup applies only to files whose path mentions markup.  A mention never reaches
over a slash, so it is in the path of a directory or in what leads on from there.
-/

namespace SourceCritic

/-! ## Mentions of markup -/

namespace Rule.Inline

/-- A path that holds one of the two words for markup. -/
def MentionsMarkup (path : Path) : Prop :=
  Text.encode "tsx" <:+: path.bytes ∨ Text.encode "jsx" <:+: path.bytes

private theorem prefix_append_separator_iff
    {separator : UInt8} {word : List UInt8} (absent : separator ∉ word) (front rest : List UInt8) :
    word <+: front ++ separator :: rest ↔ word <+: front := by
  induction front generalizing word with
  | nil =>
      cases word with
      | nil => simp
      | cons head word =>
          rw [List.mem_cons, not_or] at absent
          simp [List.cons_prefix_cons, Ne.symm absent.1]
  | cons byte front inductionHypothesis =>
      cases word with
      | nil => simp
      | cons head word =>
          rw [List.mem_cons, not_or] at absent
          rw [List.cons_append, List.cons_prefix_cons, List.cons_prefix_cons,
            inductionHypothesis absent.2]

private theorem infix_append_separator_iff
    {separator : UInt8} {word : List UInt8} (absent : separator ∉ word) (front rest : List UInt8) :
    word <:+: front ++ separator :: rest ↔ word <:+: front ∨ word <:+: rest := by
  induction front with
  | nil =>
      have begins := prefix_append_separator_iff absent [] rest
      rw [List.nil_append] at begins ⊢
      rw [List.infix_cons_iff, begins, List.prefix_nil, List.infix_nil]
  | cons byte front inductionHypothesis =>
      have begins := prefix_append_separator_iff absent (byte :: front) rest
      rw [List.cons_append] at begins ⊢
      rw [List.infix_cons_iff, begins, inductionHypothesis, List.infix_cons_iff, or_assoc]

theorem encode_tsx : Text.encode "tsx" = [0x74, 0x73, 0x78] := by
  cbv

theorem encode_jsx : Text.encode "jsx" = [0x6A, 0x73, 0x78] := by
  cbv

private theorem mentionsMarkup_append_slash (front rest : List UInt8) :
    MentionsMarkup ⟨front ++ Path.slash :: rest⟩ ↔
      MentionsMarkup ⟨front⟩ ∨ MentionsMarkup ⟨rest⟩ := by
  have notInTsx : Path.slash ∉ Text.encode "tsx" := by
    rw [encode_tsx]
    decide
  have notInJsx : Path.slash ∉ Text.encode "jsx" := by
    rw [encode_jsx]
    decide
  simp only [MentionsMarkup, infix_append_separator_iff notInTsx,
    infix_append_separator_iff notInJsx]
  exact or_or_or_comm

private theorem not_mentionsMarkup_nil : ¬ MentionsMarkup ⟨[]⟩ := by
  rw [MentionsMarkup, encode_tsx, encode_jsx]
  simp

/-- Neither of the words can lie across a slash. -/
theorem mentionsMarkup_stem_append (path : Path) (rest : List UInt8) :
    MentionsMarkup ⟨path.stem ++ rest⟩ ↔ MentionsMarkup path ∨ MentionsMarkup ⟨rest⟩ := by
  obtain ⟨front, shape, bytes⟩ := path.exists_stem_eq
  have inFront : MentionsMarkup ⟨front⟩ ↔ MentionsMarkup path := by
    rcases bytes with bytes | bytes
    · rw [← bytes]
    · have withSlash := mentionsMarkup_append_slash front []
      rw [← bytes, or_iff_left not_mentionsMarkup_nil] at withSlash
      exact withSlash.symm
  rw [shape, List.append_assoc, List.singleton_append, mentionsMarkup_append_slash, inFront]

/-- Showing a path as a text neither makes nor breaks a mention. -/
theorem isMarkup_display_iff (path : Path) :
    isMarkup path.display = true ↔ MentionsMarkup path := by
  have words (word : String) (arePlain : ∀ character ∈ word.toList, Text.IsPlain character) :
      Text.holds word.toList (Text.lossy path.bytes) = true ↔ Text.encode word <:+: path.bytes := by
    rw [Text.holds_eq_true_iff, Text.infix_lossy_iff arePlain, Text.bytes, String.ofList_toList]
  have plainTsx : ∀ character ∈ ['t', 's', 'x'], Text.IsPlain character := by
    rw [List.forall_mem_cons, List.forall_mem_cons, List.forall_mem_singleton]
    decide
  have plainJsx : ∀ character ∈ ['j', 's', 'x'], Text.IsPlain character := by
    rw [List.forall_mem_cons, List.forall_mem_cons, List.forall_mem_singleton]
    decide
  have text : path.display.toList = Text.lossy path.bytes :=
    String.toList_ofList
  rw [isMarkup, Bool.or_eq_true, text]
  exact or_congr (words "tsx" plainTsx) (words "jsx" plainJsx)

/-- The path of a file counts as markup because of the directory in which the search started or
because of what leads on from there. -/
theorem isMarkup_display_joins_iff
    (path : Path) {names : List Name} (areEntries : ∀ name ∈ names, IsEntryName name)
    (nonempty : names ≠ []) :
    isMarkup (path.joins names).display = true ↔
      MentionsMarkup path ∨ MentionsMarkup (Path.relative names) := by
  have shape : path.joins names = ⟨path.stem ++ (Path.relative names).bytes⟩ := by
    rw [← path.bytes_joins areEntries nonempty]
  rw [isMarkup_display_iff, shape, mentionsMarkup_stem_append]

end Rule.Inline

/-! ## Violations of another file -/

namespace Violation

/-- The same violation in the file at another path. -/
def inFile (path : String) (violation : Violation) : Violation :=
  { violation with filePath := path }

end Violation

namespace Rule

variable (path other : String)

/-- All rules but one pay no attention to the path. -/
theorem check_inFile_of_ne_inline {rule : Rule} (notInline : rule ≠ .inline) (text : List Char) :
    rule.check other text = (rule.check path text).map (Violation.inFile other) := by
  cases rule with
  | size =>
      simp only [check, Size.check]
      split <;> rfl
  | imports =>
      simp only [check, Imports.check]
      split <;> rfl
  | nesting =>
      simp only [check, Nesting.check]
      split <;> rfl
  | functions =>
      simp only [check, Functions.check]
      rw [List.map_filterMap]
      refine List.filterMap_congr ?_
      intro measure _
      rw [Functions.Measure.violation?, Functions.Measure.violation?, Option.map_map]
      rfl
  | inline => exact absurd rfl notInline

theorem inline_check_inFile
    (same : Inline.isMarkup path = Inline.isMarkup other) (text : List Char) :
    Inline.check other text = (Inline.check path text).map (Violation.inFile other) := by
  rw [Inline.check, Inline.check, same]
  split
  · rw [List.map_flatMap]
    simp only [List.map_map]
    rfl
  · rfl

/-- Two paths that both count as markup, or both do not, are told apart only by what stands in the
violations. -/
theorem check_inFile
    (same : Inline.isMarkup path = Inline.isMarkup other) (rule : Rule) (text : List Char) :
    rule.check other text = (rule.check path text).map (Violation.inFile other) := by
  by_cases isInline : rule = .inline
  · subst isInline
    exact inline_check_inFile path other same text
  · exact check_inFile_of_ne_inline path other isInline text

end Rule

/-- Texts are analyzed alike in two markup files, and in two files that are none. -/
theorem analyze_inFile
    {path other : String} (same : Rule.Inline.isMarkup path = Rule.Inline.isMarkup other)
    (text : String) :
    analyze other text = (analyze path text).map (Violation.inFile other) := by
  rw [analyze, analyze, List.map_flatMap]
  simp only [← Rule.check_inFile path other same]

/-- Every violation names the file that it is found in. -/
theorem filePath_of_mem_analyze
    {path text : String} {violation : Violation} (member : violation ∈ analyze path text) :
    violation.filePath = path := by
  rw [analyze_inFile rfl] at member
  obtain ⟨original, _, rfl⟩ := List.mem_map.mp member
  rfl

/-- In a file that does not count as markup nothing is said about what is created in place, and
everything else is the same. -/
theorem analyze_inFile_of_not_isMarkup
    {path other : String} (notMarkup : Rule.Inline.isMarkup path = false) (text : String) :
    (analyze path text).map (Violation.inFile other) =
      (analyze other text).filter fun violation => violation.rule ≠ Rule.inline.name := by
  rw [analyze, analyze, List.map_flatMap, List.filter_flatMap]
  refine List.flatMap_congr ?_
  intro rule _
  by_cases isInline : rule = .inline
  · subst isInline
    have nothing : Rule.inline.check path text.toList = [] := by
      simp [Rule.check, Rule.Inline.check, notMarkup]
    rw [nothing, List.map_nil, eq_comm, List.filter_eq_nil_iff]
    intro violation member
    simp [Rule.rule_of_mem_check member]
  · rw [← Rule.check_inFile_of_ne_inline path other isInline, eq_comm, List.filter_eq_self]
    intro violation member
    rw [Rule.rule_of_mem_check member]
    cases rule <;> first | exact absurd rfl isInline | decide

end SourceCritic
