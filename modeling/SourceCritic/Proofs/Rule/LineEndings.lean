import SourceCritic.Proofs.Rule.Bodies
import SourceCritic.Proofs.Rule.Names

/-!
# Line endings

Whether the lines of a text end with `'\n'` alone or with `'\r'` and `'\n'` makes no difference to
its analysis.  The violations are the same, field by field; only the texts of the imports, which
are quoted as they stand in the file, show the `'\r'`.

Rules that divide the text into lines see a `'\r'` at the end of each line, which is white space
and nothing that they look for.  Rules that scan for a pattern see two aligned texts in the sense
of `SourceCritic.Proofs.Pattern.Respacing`.
-/

namespace SourceCritic

namespace Text

/-- A character, or a `'\n'` with a `'\r'` in front of it. -/
def returned (character : Char) : List Char :=
  if character = '\n' then ['\r', '\n'] else [character]

/-- A text in which every `'\n'` has a `'\r'` put in front of it. -/
def withReturns (text : List Char) : List Char :=
  text.flatMap returned

/-- A string in which every `'\n'` has a `'\r'` put in front of it. -/
def stringWithReturns (text : String) : String :=
  String.ofList (withReturns text.toList)

@[simp]
theorem withReturns_nil : withReturns [] = [] :=
  rfl

private theorem withReturns_newline (rest : List Char) :
    withReturns ('\n' :: rest) = '\r' :: '\n' :: withReturns rest :=
  rfl

private theorem withReturns_cons_of_ne
    {head : Char} (notNewline : head ≠ '\n') (rest : List Char) :
    withReturns (head :: rest) = head :: withReturns rest := by
  simp [withReturns, returned, notNewline]

theorem lineCount_withReturns (text : List Char) :
    lineCount (withReturns text) = lineCount text := by
  induction text with
  | nil => rfl
  | cons head rest inductionHypothesis =>
      rw [lineCount, lineCount] at inductionHypothesis
      by_cases isNewline : head = '\n'
      · subst isNewline
        rw [withReturns_newline]
        simp [lineCount]
        omega
      · rw [withReturns_cons_of_ne isNewline]
        simp [lineCount, isNewline]
        omega

/-! ## Lines -/

/-- A line as it is, or with a `'\r'` at its end. -/
def SameLine (line other : List Char) : Prop :=
  other = line ∨ other = line ++ ['\r']

/-- The lines of the two texts differ by returns at their ends only. -/
theorem forall₂_lines_withReturns (text : List Char) :
    List.Forall₂ SameLine (lines text) (lines (withReturns text)) := by
  induction text with
  | nil => exact .cons (Or.inl rfl) .nil
  | cons head rest inductionHypothesis =>
      by_cases isNewline : head = '\n'
      · subst isNewline
        rw [withReturns_newline, lines_newline,
          lines_cons_of_ne (by decide) (lines_newline (withReturns rest))]
        exact .cons (Or.inr rfl) inductionHypothesis
      · obtain ⟨line, later, divided⟩ := List.exists_cons_of_ne_nil (lines_ne_nil rest)
        rw [divided] at inductionHypothesis
        obtain ⟨other, otherLater, same, sameLater, otherDivided⟩ :=
          List.forall₂_cons_left_iff.mp inductionHypothesis
        rw [withReturns_cons_of_ne isNewline, lines_cons_of_ne isNewline divided,
          lines_cons_of_ne isNewline otherDivided]
        refine .cons ?_ sameLater
        rcases same with rfl | rfl
        · exact Or.inl rfl
        · exact Or.inr rfl

private theorem SameLine.isBlank_eq
    {line other : List Char} (same : SameLine line other) : isBlank other = isBlank line := by
  rcases same with rfl | rfl
  · rfl
  · have blank : isSpace '\r' = true := by
      decide
    simp [isBlank, blank]

private theorem SameLine.count_eq
    {line other : List Char} (same : SameLine line other)
    {sought : Char} (notReturn : sought ≠ '\r') :
    other.count sought = line.count sought := by
  rcases same with rfl | rfl
  · rfl
  · simp [notReturn.symm]

private theorem SameLine.holds_eq
    {line other : List Char} (same : SameLine line other)
    {needle : List Char} (nonempty : needle ≠ []) (notReturn : '\r' ∉ needle) :
    holds needle other = holds needle line := by
  rcases same with rfl | rfl
  · rfl
  · rw [Bool.eq_iff_iff, holds_eq_true_iff, holds_eq_true_iff, List.infix_concat_iff,
      List.suffix_concat_iff]
    constructor
    · rintro ((empty | ⟨front, rfl, _⟩) | inside)
      · exact absurd empty nonempty
      · simp at notReturn
      · exact inside
    · exact Or.inr

end Text

namespace Rule

theorem Size.filledLines_withReturns (text : List Char) :
    Size.filledLines (Text.withReturns text) = Size.filledLines text := by
  have sameLines := Text.forall₂_lines_withReturns text
  rw [Size.filledLines, Size.filledLines]
  generalize Text.lines text = divided, Text.lines (Text.withReturns text) = other at sameLines ⊢
  induction sameLines with
  | nil => rfl
  | cons same _ inductionHypothesis =>
      rw [List.countP_cons, List.countP_cons, inductionHypothesis, same.isBlank_eq]

private theorem Nesting.next_eq_of_sameLine
    {line other : List Char} (same : Text.SameLine line other) (depth : Nesting.Depth) :
    depth.next other = depth.next line := by
  have sameOpening : Nesting.opensLevel other = Nesting.opensLevel line := by
    rw [Nesting.opensLevel, Nesting.opensLevel, same.holds_eq (by decide) (by decide),
      same.holds_eq (by decide) (by decide)]
  have sameClosing : Nesting.closedLevels other = Nesting.closedLevels line := by
    rw [Nesting.closedLevels, Nesting.closedLevels, same.count_eq (by decide),
      same.count_eq (by decide)]
  rw [Nesting.Depth.next, Nesting.Depth.next, sameOpening, sameClosing]

theorem Nesting.deepest_withReturns (text : List Char) :
    Nesting.deepest (Text.withReturns text) = Nesting.deepest text := by
  have sameLines := Text.forall₂_lines_withReturns text
  rw [Nesting.deepest, Nesting.deepest]
  generalize Text.lines text = divided, Text.lines (Text.withReturns text) = other at sameLines ⊢
  generalize ({ current := 0, largest := 0 } : Nesting.Depth) = depth
  induction sameLines generalizing depth with
  | nil => rfl
  | cons same _ inductionHypothesis =>
      rw [List.foldl_cons, List.foldl_cons, Nesting.next_eq_of_sameLine same, inductionHypothesis]

end Rule

/-! ## Aligned texts -/

private theorem isGap_returns : IsGap ['\r', '\n'] := by
  refine ⟨?_, ⟨'\r', ['\n'], rfl, by decide⟩, ⟨['\r'], rfl⟩⟩
  simp only [CharClass.covers_cons_iff, CharClass.covers_nil, and_true]
  decide

namespace Respacing

/-- The alignment of a text with itself and a `'\r'` in front of every `'\n'`. -/
def ofReturns (text : List Char) : Respacing :=
  text.map fun character =>
    if isNewline : character = '\n' then
      .gap ['\r', '\n'] isGap_returns
    else
      .kept character isNewline

/-- Every gap of an alignment is a `'\r'` and a `'\n'`. -/
def IsReturned (respacing : Respacing) : Prop :=
  ∀ stretch ∈ respacing, stretch.target = Text.returned stretch.source

theorem source_ofReturns (text : List Char) : source (ofReturns text) = text := by
  induction text with
  | nil => rfl
  | cons head rest inductionHypothesis =>
      rw [ofReturns, List.map_cons, source_cons, ← ofReturns, inductionHypothesis]
      by_cases isNewline : head = '\n'
      · simp [isNewline, Stretch.source]
      · simp [isNewline, Stretch.source]

private theorem isReturned_ofReturns (text : List Char) : (ofReturns text).IsReturned := by
  intro stretch member
  obtain ⟨character, _, rfl⟩ := List.mem_map.mp member
  by_cases isNewline : character = '\n'
  · simp [isNewline, Stretch.source, Stretch.target, Text.returned]
  · simp [isNewline, Stretch.source, Stretch.target, Text.returned]

/-- The alignment is one of the text with the same text and its returns. -/
theorem IsReturned.target_eq
    {respacing : Respacing} (isReturned : respacing.IsReturned) :
    target respacing = Text.withReturns (source respacing) := by
  induction respacing with
  | nil => rfl
  | cons stretch later inductionHypothesis =>
      rw [IsReturned, List.forall_mem_cons] at isReturned
      rw [target_cons, isReturned.1, inductionHypothesis isReturned.2]
      rfl

private theorem IsReturned.of_subset
    {respacing part : Respacing}
    (isReturned : respacing.IsReturned) (subset : part ⊆ respacing) : part.IsReturned :=
  fun stretch member => isReturned stretch (subset member)

end Respacing

/-- Two occurrences of a pattern, in a text and in the same text with a `'\r'` in front of every
`'\n'`. -/
def SameButReturns (pattern : Pattern) (first second : Occurrence) : Prop :=
  ∃ respacing : Respacing, respacing.IsReturned ∧ respacing.Aligned pattern first second

/-- A scan finds the same matches in both texts. -/
theorem forall₂_occurrences_withReturns
    {pattern : Pattern} (impartial : pattern.IsImpartial) (framed : pattern.IsFramed)
    (respaceable : Respaceable pattern.items) (text : List Char) :
    List.Forall₂ (SameButReturns pattern)
      (pattern.occurrences text) (pattern.occurrences (Text.withReturns text)) := by
  have isReturned := Respacing.isReturned_ofReturns text
  have aligned :=
    Respacing.forall₂_aligned_occurrences impartial framed respaceable
      (Respacing.ofReturns text)
  rw [isReturned.target_eq, Respacing.source_ofReturns] at aligned
  exact aligned.imp fun first second same => ⟨Respacing.ofReturns text, isReturned, same⟩

namespace SameButReturns

variable {pattern : Pattern} {first second : Occurrence}

theorem matched_eq (same : SameButReturns pattern first second) :
    second.matched = Text.withReturns first.matched := by
  obtain ⟨_, isReturned, before, matched, after, rfl, _, rfl, rfl⟩ := same
  rw [Occurrence.matched_between, Occurrence.matched_between]
  exact (isReturned.of_subset (by simp)).target_eq

theorem line_eq (same : SameButReturns pattern first second) :
    second.place.line = first.place.line := by
  obtain ⟨_, isReturned, before, matched, after, rfl, _, rfl, rfl⟩ := same
  have target_eq : before.target = Text.withReturns before.source :=
    (isReturned.of_subset (by simp)).target_eq
  change Text.lineCount before.target = Text.lineCount before.source
  rw [target_eq, Text.lineCount_withReturns]

end SameButReturns

/-- What a function makes of the occurrences in a text is what another one makes of the occurrences
in the text with returns, if they agree one by one. -/
theorem map_occurrences_withReturns
    {Result : Type} {pattern : Pattern} (impartial : pattern.IsImpartial)
    (framed : pattern.IsFramed) (respaceable : Respaceable pattern.items)
    {original altered : Occurrence → Result}
    (agree :
      ∀ {first second : Occurrence}, SameButReturns pattern first second →
        altered second = original first)
    (text : List Char) :
    (pattern.occurrences (Text.withReturns text)).map altered =
      (pattern.occurrences text).map original := by
  have same := forall₂_occurrences_withReturns impartial framed respaceable text
  rw [eq_comm, ← List.forall₂_eq_eq_eq, List.forall₂_map_left_iff, List.forall₂_map_right_iff]
  exact same.imp fun _ _ sameOccurrence => (agree sameOccurrence).symm

/-! ## The rules -/

namespace Rule

theorem Imports.imports_withReturns (text : List Char) :
    Imports.imports (Text.withReturns text) =
      (Imports.imports text).map Text.stringWithReturns := by
  have agree :
      ∀ {pattern : Pattern} {first second : Occurrence}, SameButReturns pattern first second →
        String.ofList second.matched =
          Text.stringWithReturns (String.ofList first.matched) := by
    intro pattern first second same
    rw [same.matched_eq, Text.stringWithReturns, String.toList_ofList]
  rw [Imports.imports, Imports.imports, List.map_map, List.map_append, List.map_append,
    map_occurrences_withReturns isImpartial_statement isFramed_statement respaceable_statement
      agree,
    map_occurrences_withReturns isImpartial_call isFramed_call respaceable_call agree]
  rfl

/-- The same is measured of a declaration with and without the returns. -/
theorem Functions.ofOccurrence?_eq
    {first second : Occurrence} (same : SameButReturns declaration first second) :
    Measure.ofOccurrence? second = Measure.ofOccurrence? first := by
  have sameLine := same.line_eq
  obtain ⟨_, isReturned, before, matched, after, rfl, matching, rfl, rfl⟩ := same
  have tails :
      (Occurrence.between before.source matched.source after.source).tail =
          (matched ++ after).source ∧
        (Occurrence.between before.target matched.target after.target).tail =
          (matched ++ after).target := by
    rw [Respacing.source_append, Respacing.target_append]
    exact ⟨rfl, rfl⟩
  obtain ⟨inner, inside, sourceBody, targetBody⟩ := body?_target (matched ++ after)
  rw [Measure.ofOccurrence?, Measure.ofOccurrence?, tails.1, tails.2, sourceBody, targetBody,
    sameLine, Occurrence.matched_between, Occurrence.matched_between,
    declaredName_target matching]
  cases inner with
  | none => rfl
  | some part =>
      have partReturned : part.IsReturned := by
        refine isReturned.of_subset fun stretch member => ?_
        have found := (inside part rfl).subset member
        rw [List.append_assoc]
        exact List.mem_append_right _ found
      have sameLines : Text.lineCount part.target = Text.lineCount part.source := by
        rw [partReturned.target_eq, Text.lineCount_withReturns]
      simp only [Option.map_some, complexity_target, sameLines]

theorem Functions.check_withReturns (path : String) (text : List Char) :
    Functions.check path (Text.withReturns text) = Functions.check path text := by
  have measured :=
    map_occurrences_withReturns isImpartial_declaration isFramed_declaration
      respaceable_declaration Functions.ofOccurrence?_eq text
  have combined := congrArg (List.filterMap id) measured
  rw [List.filterMap_map, List.filterMap_map] at combined
  rw [Functions.check, Functions.check]
  exact congrArg (List.filterMap (Measure.violation? path)) combined

theorem Inline.check_withReturns (path : String) (text : List Char) :
    Inline.check path (Text.withReturns text) = Inline.check path text := by
  have same :
      ∀ creation : Creation,
        (creation.pattern.occurrences (Text.withReturns text)).map
            (fun occurrence => creation.violation path occurrence.place.line) =
          (creation.pattern.occurrences text).map
            (fun occurrence => creation.violation path occurrence.place.line) := by
    intro creation
    refine
      map_occurrences_withReturns creation.isImpartial_pattern creation.isFramed_pattern
        creation.respaceable_pattern (fun sameOccurrence => ?_) text
    rw [sameOccurrence.line_eq]
  simp only [Inline.check, same]

end Rule

/-! ## The analysis -/

/-- The value with a `'\r'` put in front of every `'\n'` if it is a string. -/
def Json.stringWithReturns : Json → Json
  | .string value => .string (Text.stringWithReturns value)
  | other => other

/-- The value with returns in all its strings if it is an array. -/
def Json.itemsWithReturns : Json → Json
  | .array items => .array (items.map Json.stringWithReturns)
  | other => other

/-- The value with returns in the strings of one member if it is an object. -/
def Json.memberWithReturns (key : String) : Json → Json
  | .object members =>
      .object
        (members.map fun member =>
          if member.1 = key then (member.1, member.2.itemsWithReturns) else member)
  | other => other

/-- The violation with returns in the texts of imports, if it lists any. -/
def Violation.withReturns (violation : Violation) : Violation :=
  if violation.rule = Rule.imports.name then
    { violation with context := violation.context.memberWithReturns "imports" }
  else
    violation

namespace Rule

/-- Imports that span lines are listed with the returns in them. -/
theorem Imports.check_withReturns (path : String) (text : List Char) :
    Imports.check path (Text.withReturns text) =
      (Imports.check path text).map Violation.withReturns := by
  simp only [Imports.check, Imports.imports_withReturns, List.length_map]
  generalize Imports.imports text = found
  cases Imports.severity? found.length with
  | none => rfl
  | some severity =>
      have pair :
          ∀ count items : Json,
            Json.sortedObject [("import_count", count), ("imports", items)] =
              .object [("import_count", count), ("imports", items)] :=
        Json.sortedObject_pair (by decide) (by decide)
      have context :
          Json.sortedObject
              [("import_count", .count found.length),
                ("imports", .array ((found.map Text.stringWithReturns).map .string))] =
            (Json.sortedObject
              [("import_count", .count found.length),
                ("imports", .array (found.map .string))]).memberWithReturns "imports" := by
        rw [pair, pair]
        simp [Json.memberWithReturns, Json.itemsWithReturns, Json.stringWithReturns,
          Function.comp_def]
      simp only [List.map_cons, List.map_nil, Violation.withReturns, Rule.name, if_true, context]

/-- What a rule reports with returns in the text is what it reports without them, but for the
texts of imports. -/
theorem check_withReturns (rule : Rule) (path : String) (text : List Char) :
    rule.check path (Text.withReturns text) =
      (rule.check path text).map Violation.withReturns := by
  by_cases isImports : rule = .imports
  · rw [isImports]
    exact Imports.check_withReturns path text
  · have unaltered : ∀ violation ∈ rule.check path text, violation.withReturns = violation := by
      intro violation member
      rw [Violation.withReturns, rule_of_mem_check member, if_neg]
      cases rule with
      | imports => exact absurd rfl isImports
      | _ => decide
    rw [List.map_congr_left unaltered, List.map_id']
    cases rule with
    | size => simp only [check, Size.check, Size.filledLines_withReturns]
    | imports => exact absurd rfl isImports
    | nesting => simp only [check, Nesting.check, Nesting.deepest_withReturns]
    | functions => exact Functions.check_withReturns path text
    | inline => exact Inline.check_withReturns path text

end Rule

/-- The violations of a text do not depend on whether its lines end with `'\n'` or with `'\r'` and
`'\n'`: they are the same in every field, except that the texts of imports keep the `'\r'`. -/
theorem analyze_withReturns (path text : String) :
    analyze path (Text.stringWithReturns text) =
      (analyze path text).map Violation.withReturns := by
  simp only [analyze, List.map_flatMap, Text.stringWithReturns, String.toList_ofList,
    Rule.check_withReturns]

end SourceCritic
