import SourceCritic.Proofs.Pattern.Starts
import SourceCritic.Proofs.Rule.Bodies
import SourceCritic.Proofs.Text.BlankLines

/-!
# Blank lines

Blank lines in a text move what stands behind them, and this is all that they do.  No rule finds
more or fewer places in a text with blank lines put into it, and a declaration gets longer by the
lines that are put into its body.

Rules that divide the text into lines see lines that they do not count.  For rules that scan for a
pattern, a `'\n'` with blank lines behind it is a gap in the sense of
`SourceCritic.Proofs.Pattern.Respacing`.
-/

namespace SourceCritic

open Text (Padding)

/-! ## Lines -/

namespace Rule

private theorem Size.countP_linesFrom (padding : Padding) (number : Nat)
    (divided : List (List Char)) :
    (padding.linesFrom number divided).countP (fun line => !Text.isBlank line) =
      divided.countP fun line => !Text.isBlank line := by
  fun_induction Padding.linesFrom padding number divided with
  | case1 => rfl
  | case2 => rfl
  | case3 number line next later inductionHypothesis =>
      have uncounted :
          ((padding number).map Text.BlankLine.characters).countP
            (fun line => !Text.isBlank line) = 0 := by
        rw [List.countP_eq_zero]
        intro inserted member
        obtain ⟨blank, _, rfl⟩ := List.mem_map.mp member
        simp [blank.isBlank]
      rw [List.countP_cons, List.countP_append, uncounted, Nat.zero_add, inductionHypothesis,
        ← List.countP_cons]

theorem Size.filledLines_apply (padding : Padding) (text : List Char) :
    filledLines (padding.apply text) = filledLines text := by
  rw [filledLines, filledLines, Padding.apply, Padding.lines_applyFrom, Size.countP_linesFrom]

namespace Nesting

private theorem opensLevel_of_isBlank
    {line : List Char} (blank : Text.isBlank line = true) : opensLevel line = false := by
  have unheld :
      ∀ {needle : List Char} (character : Char), character ∈ needle →
        Text.isSpace character = false → Text.holds needle line = false := by
    intro needle character member solid
    rw [Bool.eq_false_iff, ne_eq, Text.holds_eq_true_iff]
    intro inside
    exact Text.not_mem_of_isBlank blank solid (inside.subset member)
  rw [opensLevel, unheld 'f' (by decide) (by decide), unheld '=' (by decide) (by decide),
    Bool.or_false]

/-- A blank line changes no depth that has been reached. -/
private theorem next_of_isBlank
    {depth : Depth} (reached : depth.current ≤ depth.largest)
    {line : List Char} (blank : Text.isBlank line = true) : depth.next line = depth := by
  have noneClosed : closedLevels line = 0 := by
    rw [closedLevels, List.count_eq_zero.mpr (Text.not_mem_of_isBlank blank (by decide)),
      Nat.zero_sub]
  rw [Depth.next, opensLevel_of_isBlank blank, noneClosed, if_neg Bool.false_ne_true,
    Nat.sub_zero, Nat.max_eq_left reached]

private theorem current_le_largest_next (depth : Depth) (line : List Char) :
    (depth.next line).current ≤ (depth.next line).largest :=
  Nat.le_trans (Nat.sub_le _ _) (Nat.le_max_right _ _)

private theorem foldl_next_blank
    {depth : Depth} (reached : depth.current ≤ depth.largest)
    (inserted : List Text.BlankLine) :
    (inserted.map Text.BlankLine.characters).foldl Depth.next depth = depth := by
  induction inserted with
  | nil => rfl
  | cons blank later inductionHypothesis =>
      rw [List.map_cons, List.foldl_cons, next_of_isBlank reached blank.isBlank,
        inductionHypothesis]

/-- Blank lines do not change the depth at the end of a text. -/
theorem foldl_next_linesFrom
    (padding : Padding) (number : Nat) (divided : List (List Char)) (depth : Depth) :
    (padding.linesFrom number divided).foldl Depth.next depth =
      divided.foldl Depth.next depth := by
  fun_induction Padding.linesFrom padding number divided generalizing depth with
  | case1 => rfl
  | case2 => rfl
  | case3 number line next later inductionHypothesis =>
      rw [List.foldl_cons, List.foldl_append,
        foldl_next_blank (current_le_largest_next depth line), inductionHypothesis,
        ← List.foldl_cons]

theorem deepest_apply (padding : Padding) (text : List Char) :
    deepest (padding.apply text) = deepest text := by
  rw [deepest, deepest, Padding.apply, Padding.lines_applyFrom, foldl_next_linesFrom]

end Nesting

end Rule

/-! ## Aligned texts -/

private theorem isGap_newline_behind (padding : Padding) (number : Nat) :
    IsGap ('\n' :: padding.behind number) := by
  refine ⟨?_, ⟨'\n', _, rfl, by decide⟩, padding.exists_newline_behind_eq number⟩
  intro character member
  rcases List.mem_cons.mp member with rfl | inserted
  · decide
  · exact Padding.isSpace_of_mem_behind inserted

namespace Respacing

/-- The alignment of a text that begins on the line with a number with the padded text. -/
def ofPadding (padding : Padding) : (number : Nat) → (text : List Char) → Respacing
  | _, [] => []
  | number, head :: rest =>
      if isNewline : head = '\n' then
        .gap ('\n' :: padding.behind number) (isGap_newline_behind padding number) ::
          ofPadding padding (number + 1) rest
      else
        .kept head isNewline :: ofPadding padding number rest

variable (padding : Padding)

theorem source_ofPadding (number : Nat) (text : List Char) :
    source (ofPadding padding number text) = text := by
  induction text generalizing number with
  | nil => rfl
  | cons head rest inductionHypothesis =>
      by_cases isNewline : head = '\n'
      · rw [ofPadding, dif_pos isNewline, source_cons, inductionHypothesis, isNewline]
        rfl
      · rw [ofPadding, dif_neg isNewline, source_cons, inductionHypothesis]
        rfl

theorem target_ofPadding (number : Nat) (text : List Char) :
    target (ofPadding padding number text) = padding.applyFrom number text := by
  induction text generalizing number with
  | nil => rfl
  | cons head rest inductionHypothesis =>
      by_cases isNewline : head = '\n'
      · rw [ofPadding, dif_pos isNewline, target_cons, inductionHypothesis, isNewline]
        rfl
      · rw [ofPadding, dif_neg isNewline, target_cons, inductionHypothesis,
          Padding.applyFrom_cons_of_ne padding isNewline]
        rfl

theorem ofPadding_append (number : Nat) (first second : List Char) :
    ofPadding padding number (first ++ second) =
      ofPadding padding number first ++
        ofPadding padding (number + first.count '\n') second := by
  induction first generalizing number with
  | nil => rfl
  | cons head rest inductionHypothesis =>
      by_cases isNewline : head = '\n'
      · have next : number + 1 + rest.count '\n' = number + (rest.count '\n' + 1) := by
          omega
        rw [List.cons_append, ofPadding, dif_pos isNewline, ofPadding, dif_pos isNewline,
          inductionHypothesis, isNewline, List.count_cons_self, next, List.cons_append]
      · rw [List.cons_append, ofPadding, dif_neg isNewline, ofPadding, dif_neg isNewline,
          inductionHypothesis, List.count_cons_of_ne isNewline, List.cons_append]

/-- The second text of an alignment is the first one with blank lines put into it. -/
def IsPadded (number : Nat) (respacing : Respacing) : Prop :=
  respacing = ofPadding padding number (source respacing)

/-- The alignment is one of the text with the padded text. -/
theorem isPadded_ofPadding (number : Nat) (text : List Char) :
    IsPadded padding number (ofPadding padding number text) := by
  rw [IsPadded, source_ofPadding]

variable {padding}

theorem IsPadded.target_eq
    {number : Nat} {respacing : Respacing} (isPadded : IsPadded padding number respacing) :
    target respacing = padding.applyFrom number (source respacing) := by
  rw [← target_ofPadding, ← isPadded]

private theorem IsPadded.of_append
    {number : Nat} {first second : Respacing}
    (isPadded : IsPadded padding number (first ++ second)) :
    IsPadded padding number first ∧
      IsPadded padding (number + (source first).count '\n') second := by
  have sameLength : first.length = (ofPadding padding number (source first)).length := by
    rw [← length_source, ← length_source, source_ofPadding]
  rw [IsPadded, source_append, ofPadding_append] at isPadded
  exact List.append_inj isPadded sameLength

end Respacing

theorem Text.Padding.applyFrom_append
    (padding : Padding) (number : Nat) (first second : List Char) :
    padding.applyFrom number (first ++ second) =
      padding.applyFrom number first ++
        padding.applyFrom (number + first.count '\n') second := by
  rw [← Respacing.target_ofPadding, Respacing.ofPadding_append, Respacing.target_append,
    Respacing.target_ofPadding, Respacing.target_ofPadding]

/-! ## Occurrences -/

namespace Text.Padding

/-- The number that a line has behind all blank lines put in front of it. -/
def moveLine (padding : Padding) (line : Nat) : Nat :=
  line + padding.linesBetween 1 line

/-- An occurrence in a text as it stands in the padded text. -/
def move (padding : Padding) (text : List Char) (occurrence : Occurrence) : Occurrence where
  place :=
    { offset := (padding.apply (text.take occurrence.place.offset)).length
      line := padding.moveLine occurrence.place.line }
  tail := padding.applyFrom occurrence.place.line occurrence.tail
  length := (padding.applyFrom occurrence.place.line occurrence.matched).length

variable (padding : Padding)

theorem lineCount_apply (text : List Char) :
    lineCount (padding.apply text) = padding.moveLine (lineCount text) := by
  have positive : 1 + (lineCount text - 1) = lineCount text := by
    rw [lineCount]
    omega
  rw [apply, lineCount_applyFrom, positive, moveLine]

theorem matched_move (text : List Char) (occurrence : Occurrence) :
    (padding.move text occurrence).matched =
      padding.applyFrom occurrence.place.line occurrence.matched := by
  have divided : occurrence.tail = occurrence.matched ++ occurrence.tail.drop occurrence.length :=
    (List.take_append_drop _ _).symm
  have tail :
      (padding.move text occurrence).tail =
        padding.applyFrom occurrence.place.line
          (occurrence.matched ++ occurrence.tail.drop occurrence.length) := by
    rw [← divided, move]
  rw [Occurrence.matched, tail, applyFrom_append, move, List.take_left]

variable {padding}

/-- An occurrence that divides the text of an alignment is moved to the one that divides the padded
text at the aligned positions. -/
theorem move_between
    {before matched after : Respacing}
    (isPadded : Respacing.IsPadded padding 1 (before ++ (matched ++ after))) :
    padding.move (Respacing.source (before ++ (matched ++ after)))
        (.between before.source matched.source after.source) =
      .between before.target matched.target after.target := by
  obtain ⟨beforePadded, tailPadded⟩ := isPadded.of_append
  obtain ⟨matchedPadded, _⟩ := tailPadded.of_append
  have front :
      (Respacing.source (before ++ (matched ++ after))).take before.source.length =
        before.source := by
    rw [Respacing.source_append, List.take_left]
  have offset : (padding.apply before.source).length = before.target.length := by
    rw [apply, beforePadded.target_eq]
  have line : padding.moveLine (lineCount before.source) = lineCount before.target := by
    rw [← lineCount_apply, apply, beforePadded.target_eq]
  -- What comes next begins on the line that the number of lines so far tells.
  have tail :
      padding.applyFrom (lineCount before.source) (matched.source ++ after.source) =
        matched.target ++ after.target := by
    rw [← Respacing.source_append, ← Respacing.target_append, tailPadded.target_eq, lineCount]
  have length :
      (padding.applyFrom (lineCount before.source) matched.source).length =
        matched.target.length := by
    rw [matchedPadded.target_eq, lineCount]
  rw [move, Occurrence.matched_between]
  simp only [Occurrence.between, Place.behind, front, offset, line, tail, length]

variable (padding)

/-- The occurrences in a padded text are the ones in the text itself, moved one by one. -/
theorem occurrences_apply
    {pattern : Pattern} (impartial : pattern.IsImpartial) (framed : pattern.IsFramed)
    (respaceable : Respaceable pattern.items) (text : List Char) :
    pattern.occurrences (padding.apply text) =
      (pattern.occurrences text).map (padding.move text) := by
  have aligned :=
    Respacing.forall₂_aligned_occurrences impartial framed respaceable
      (Respacing.ofPadding padding 1 text)
  rw [Respacing.source_ofPadding, Respacing.target_ofPadding] at aligned
  rw [apply, eq_comm, ← List.forall₂_eq_eq_eq, List.forall₂_map_left_iff]
  apply aligned.imp
  intro first second sameDivision
  obtain ⟨before, matched, after, division, _, rfl, rfl⟩ := sameDivision
  have isPadded := Respacing.isPadded_ofPadding padding 1 text
  rw [List.append_assoc] at division
  rw [division] at isPadded
  have moved := move_between isPadded
  rw [← division, Respacing.source_ofPadding] at moved
  exact moved

end Text.Padding

/-! ## The rules -/

namespace Rule

namespace Imports

/-- Two violations of the import rule that differ in the texts of the imports only. -/
structure SameCount (first second : Violation) : Prop where
  same : second = { first with context := second.context }
  counted :
    ∃ count texts otherTexts,
      first.context = .object [("import_count", .count count), ("imports", .array texts)] ∧
        second.context = .object [("import_count", .count count), ("imports", .array otherTexts)]

private theorem length_imports_apply (padding : Padding) (text : List Char) :
    (imports (padding.apply text)).length = (imports text).length := by
  rw [imports, imports,
    padding.occurrences_apply isImpartial_statement isFramed_statement respaceable_statement,
    padding.occurrences_apply isImpartial_call isFramed_call respaceable_call]
  simp only [List.length_map, List.length_append]

/-- The rule on imports counts the same statements. -/
theorem sameCount_check_apply (path : String) (padding : Padding) (text : List Char) :
    List.Forall₂ SameCount (check path text) (check path (padding.apply text)) := by
  have sameLength := length_imports_apply padding text
  simp only [check, sameLength]
  cases severity? (imports text).length with
  | none => exact .nil
  | some severity =>
      refine
        .cons
          ⟨rfl, (imports text).length, (imports text).map .string,
            (imports (padding.apply text)).map .string, ?_, ?_⟩
          .nil
      · exact Json.sortedObject_pair (by decide) (by decide) _ _
      · exact Json.sortedObject_pair (by decide) (by decide) _ _

end Imports

namespace Functions

/-- A body grows by the blank lines that are put into it. -/
theorem body?_applyFrom (padding : Padding) (number : Nat) (text : List Char) :
    body? (padding.applyFrom number text) = (body? text).map (padding.applyFrom number) := by
  obtain ⟨inner, inside, sourceBody, targetBody⟩ :=
    body?_target (Respacing.ofPadding padding number text)
  rw [Respacing.source_ofPadding] at sourceBody
  rw [Respacing.target_ofPadding] at targetBody
  rw [sourceBody, targetBody, Option.map_map]
  apply Option.map_congr
  intro part member
  obtain ⟨later, division⟩ := inside part member
  have isPadded := Respacing.isPadded_ofPadding padding number text
  rw [← division] at isPadded
  exact isPadded.of_append.1.target_eq

/-- Blank lines are no branches. -/
theorem complexity_applyFrom (padding : Padding) (number : Nat) (text : List Char) :
    complexity (padding.applyFrom number text) = complexity text := by
  have same := complexity_target (Respacing.ofPadding padding number text)
  rw [Respacing.target_ofPadding, Respacing.source_ofPadding] at same
  exact same

theorem declaredName_applyFrom
    (padding : Padding) (number : Nat) {text : List Char}
    (matching : Matches declaration.items text) :
    declaredName (padding.applyFrom number text) = declaredName text := by
  rw [← Respacing.source_ofPadding padding number text] at matching
  have same := declaredName_target matching
  rw [Respacing.target_ofPadding, Respacing.source_ofPadding] at same
  exact same

/-- What is measured of a declaration in the padded text: it is on another line and has as many
more lines as are put into its body. -/
def Measure.pad (padding : Padding) (measure : Measure) : Measure :=
  { measure with
    line := padding.moveLine measure.line
    lines :=
      measure.lines +
        padding.linesBetween measure.line (measure.line + (measure.lines - 1)) }

/-- What is measured of a declaration moves and grows with the lines of its body. -/
theorem ofOccurrence?_move
    (padding : Padding) {text : List Char} {occurrence : Occurrence}
    (member : occurrence ∈ declaration.occurrences text) :
    Measure.ofOccurrence? (padding.move text occurrence) =
      (Measure.ofOccurrence? occurrence).map (Measure.pad padding) := by
  have matching : Matches declaration.items occurrence.matched := by
    obtain ⟨before, matched, after, _, rfl, spans⟩ :=
      isImpartial_declaration.exists_between_of_mem text member
    rw [Occurrence.matched_between]
    exact spans.1
  have tail :
      (padding.move text occurrence).tail =
        padding.applyFrom occurrence.place.line occurrence.tail :=
    rfl
  rw [Measure.ofOccurrence?, Measure.ofOccurrence?, tail, body?_applyFrom, Option.map_map,
    Option.map_map, Padding.matched_move, declaredName_applyFrom padding _ matching]
  apply Option.map_congr
  intro body _
  simp only [Function.comp_apply, complexity_applyFrom, Padding.lineCount_applyFrom,
    Measure.pad, Padding.move]

theorem occurrences_declaration_apply (padding : Padding) (text : List Char) :
    declaration.occurrences (padding.apply text) =
      (declaration.occurrences text).map (padding.move text) :=
  padding.occurrences_apply isImpartial_declaration isFramed_declaration respaceable_declaration
    text

theorem map_ofOccurrence?_apply (padding : Padding) (text : List Char) :
    (declaration.occurrences (padding.apply text)).map Measure.ofOccurrence? =
      (declaration.occurrences text).map fun occurrence =>
        (Measure.ofOccurrence? occurrence).map (Measure.pad padding) := by
  rw [occurrences_declaration_apply, List.map_map]
  apply List.map_congr_left
  intro occurrence member
  exact ofOccurrence?_move padding member

theorem check_apply (path : String) (padding : Padding) (text : List Char) :
    check path (padding.apply text) =
      ((declaration.occurrences text).filterMap Measure.ofOccurrence?).filterMap fun measure =>
        (measure.pad padding).violation? path := by
  have measured :
      (declaration.occurrences (padding.apply text)).filterMap Measure.ofOccurrence? =
        ((declaration.occurrences text).filterMap Measure.ofOccurrence?).map
          (Measure.pad padding) := by
    rw [occurrences_declaration_apply, List.filterMap_map, List.map_filterMap]
    apply List.filterMap_congr
    intro occurrence member
    exact ofOccurrence?_move padding member
  rw [check, measured, List.filterMap_map]
  rfl

end Functions

namespace Inline

theorem check_apply (path : String) (padding : Padding) (text : List Char) :
    check path (padding.apply text) =
      (check path text).map fun violation =>
        { violation with lineNumber := padding.moveLine violation.lineNumber } := by
  have occurrences :
      ∀ creation : Creation,
        creation.pattern.occurrences (padding.apply text) =
          (creation.pattern.occurrences text).map (padding.move text) := by
    intro creation
    exact padding.occurrences_apply creation.isImpartial_pattern creation.isFramed_pattern
      creation.respaceable_pattern text
  rw [check, check]
  split
  · simp only [occurrences, List.map_flatMap, List.map_map]
    rfl
  · rfl

end Inline

/-- With blank lines put into a text, the rules on its size and its nesting report the same.  What
the import rule reports is the same but for the texts of the imports, and what the inline creation
rule reports is the same on lines that are moved.  The function rule finds the same declarations,
moved one by one; it finds a body where it did before, with the same complexity and as many more
lines as are put into it. -/
theorem checks_with_blank_lines (path : String) (padding : Padding) (text : List Char) :
    Size.check path (padding.apply text) = Size.check path text ∧
      Nesting.check path (padding.apply text) = Nesting.check path text ∧
      List.Forall₂ Imports.SameCount
        (Imports.check path text) (Imports.check path (padding.apply text)) ∧
      Inline.check path (padding.apply text) =
        ((Inline.check path text).map fun violation =>
          { violation with lineNumber := padding.moveLine violation.lineNumber }) ∧
      Functions.declaration.occurrences (padding.apply text) =
        (Functions.declaration.occurrences text).map (padding.move text) ∧
      (Functions.declaration.occurrences (padding.apply text)).map
          Functions.Measure.ofOccurrence? =
        ((Functions.declaration.occurrences text).map fun occurrence =>
          (Functions.Measure.ofOccurrence? occurrence).map (Functions.Measure.pad padding)) ∧
      Functions.check path (padding.apply text) =
        ((Functions.declaration.occurrences text).filterMap
          Functions.Measure.ofOccurrence?).filterMap fun measure =>
            (measure.pad padding).violation? path := by
  refine ⟨?_, ?_, ?_, ?_, ?_, ?_, ?_⟩
  · rw [Size.check, Size.check, Size.filledLines_apply]
  · rw [Nesting.check, Nesting.check, Nesting.deepest_apply]
  · exact Imports.sameCount_check_apply path padding text
  · exact Inline.check_apply path padding text
  · exact Functions.occurrences_declaration_apply padding text
  · exact Functions.map_ofOccurrence?_apply padding text
  · exact Functions.check_apply path padding text

end Rule

end SourceCritic
