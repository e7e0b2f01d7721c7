import SourceCritic.Proofs.Pattern.Packing
import SourceCritic.Proofs.Rule.Overlap

/-!
# Matches side by side

Calls of `require`, inline objects and inline functions may hold one another, as in braces within
braces, and a scan that takes the outer match passes over the inner one.  Nothing is lost by this.
A match that holds another one can always be made to stop where the inner one does: everything in
front of the inner match belongs to a part of the outer one that stays on its line, and the inner
match goes on as the outer one might.  So the scan takes as many matches as there can be side by
side.
-/

namespace SourceCritic.Rule

open CharClass

/-- A character that is not in a text is only found behind it. -/
private theorem exists_behind_of_not_mem
    {lead tail front rest : List Char} {character : Char}
    (absent : character ∉ lead)
    (division : lead ++ tail = front ++ character :: rest) :
    ∃ between, front = lead ++ between ∧ tail = between ++ character :: rest := by
  rcases List.append_eq_append_iff.mp division with
    ⟨between, frontShape, tailShape⟩ | ⟨between, leadShape, restShape⟩
  · exact ⟨between, frontShape, tailShape⟩
  · cases between with
    | nil => exact ⟨[], by simpa using leadShape.symm, by simpa using restShape.symm⟩
    | cons first later =>
        injection restShape with same _
        rw [leadShape, same] at absent
        exact absurd (List.mem_append_right front List.mem_cons_self) absent

/-- A character that is not at the end of a text is found in front of it. -/
private theorem exists_within_of_not_mem
    {run tail front rest : List Char} {character : Char}
    (absent : character ∉ tail)
    (division : run ++ tail = front ++ character :: rest) :
    ∃ between, run = front ++ character :: between := by
  rcases List.append_eq_append_iff.mp division with
    ⟨between, _, tailShape⟩ | ⟨between, runShape, restShape⟩
  · rw [tailShape] at absent
    exact absurd (List.mem_append_right between List.mem_cons_self) absent
  · cases between with
    | nil =>
        rw [← List.nil_append tail, ← restShape] at absent
        exact absurd List.mem_cons_self absent
    | cons first later =>
        injection restShape with same _
        exact ⟨later, by rw [runShape, same]⟩

namespace Inline.Creation

/-! ## Objects -/

/-- An object is two opening braces, a content on one line and two closing braces. -/
theorem matches_object_iff (text : List Char) :
    Matches Creation.object.pattern.items text ↔
      ∃ gap content secondGap,
        text = '{' :: (gap ++ '{' :: (content ++ '}' :: (secondGap ++ ['}']))) ∧
          CharClass.space.Covers gap ∧ CharClass.inLine.Covers content ∧
            CharClass.space.Covers secondGap := by
  simp only [pattern, matches_one_iff, matches_many_iff, matches_nil_iff]
  constructor
  · rintro ⟨opening, _, rfl, isOpening, gap, _, rfl, gapCovered, second, _, rfl, isSecond, content,
      _, rfl, covered, closing, _, rfl, isClosing, secondGap, _, rfl, secondCovered, last, _, rfl,
      isLast, rfl⟩
    simp only [CharClass.contains, decide_eq_true_eq] at isOpening isSecond isClosing isLast
    subst isOpening isSecond isClosing isLast
    exact ⟨gap, content, secondGap, rfl, gapCovered, covered, secondCovered⟩
  · rintro ⟨gap, content, secondGap, rfl, gapCovered, covered, secondCovered⟩
    exact
      ⟨'{', _, rfl, by decide, gap, _, rfl, gapCovered, '{', _, rfl, by decide, content, _, rfl,
        covered, '}', _, rfl, by decide, secondGap, _, rfl, secondCovered, '}', _, rfl, by decide,
        rfl⟩

/-- An object within another one, which begins with the second brace of it or in its content, has
its own second brace in that content. -/
private theorem exists_in_content
    {front gap rest innerGap more : List Char}
    (nonempty : front ≠ [])
    (gapCovered : CharClass.space.Covers gap)
    (division : front ++ '{' :: (innerGap ++ '{' :: more) = '{' :: (gap ++ '{' :: rest)) :
    ∃ lead,
      front ++ '{' :: innerGap = '{' :: (gap ++ '{' :: lead) ∧ rest = lead ++ '{' :: more := by
  obtain ⟨first, front, rfl⟩ := List.exists_cons_of_ne_nil nonempty
  rw [List.cons_append] at division
  injection division with isOpening division
  obtain ⟨between, rfl, behindGap⟩ :=
    gapCovered.split_at_outside (by decide : CharClass.space.contains '{' = false)
      division.symm
  cases between with
  | nil =>
      injection behindGap with _ restShape
      exact ⟨innerGap, by rw [isOpening]; simp, restShape⟩
  | cons second between =>
      injection behindGap with isSecond restShape
      refine ⟨between ++ '{' :: innerGap, ?_, ?_⟩
      · rw [isOpening, ← isSecond]
        simp
      · rw [restShape]
        simp

/-- An object can be ended by the braces of an object that begins within it. -/
theorem isOrderly_object : Creation.object.pattern.IsOrderly := by
  apply Pattern.IsOrderly.of_nested
  intro before front inner back after nonempty spans innerSpans
  obtain ⟨gap, content, secondGap, division, gapCovered, covered, secondCovered⟩ :=
    (matches_object_iff _).mp spans.1
  obtain ⟨innerGap, innerContent, innerSecond, rfl, _, innerCovered, innerSecondCovered⟩ :=
    (matches_object_iff inner).mp innerSpans.1
  have regrouped :
      front ++ '{' :: (innerGap ++ '{' ::
        (innerContent ++ '}' :: (innerSecond ++ ['}']) ++ back)) =
          '{' :: (gap ++ '{' :: (content ++ '}' :: (secondGap ++ ['}']))) := by
    simpa using division
  obtain ⟨lead, frontShape, rest⟩ := exists_in_content nonempty gapCovered regrouped
  -- No brace is opened behind the content, so the second brace of the inner object is within it.
  have absent : '{' ∉ '}' :: (secondGap ++ ['}']) := by
    have notSpace : '{' ∉ secondGap := by
      intro member
      exact absurd (secondCovered '{' member) (by decide)
    simp [notSpace]
  obtain ⟨later, contentShape⟩ := exists_within_of_not_mem absent rest
  rw [contentShape, covers_append_iff] at covered
  have brace : CharClass.inLine.contains '{' = true := by
    decide
  refine ⟨(matches_object_iff _).mpr ?_, rfl, rfl⟩
  refine
    ⟨gap, lead ++ '{' :: innerContent, innerSecond, ?_, gapCovered, ?_, innerSecondCovered⟩
  · rw [← List.cons_append, ← List.append_assoc, frontShape]
    simp
  · rw [covers_append_iff, covers_cons_iff]
    exact ⟨covered.1, brace, innerCovered⟩

/-! ## Functions -/

/-- An inline function is a brace, its parameters and its arrow. -/
theorem matches_function_iff (text : List Char) :
    Matches Creation.function.pattern.items text ↔
      ∃ gap parameters arrow,
        text = '{' :: (gap ++ '(' :: (parameters ++ arrow)) ∧
          CharClass.space.Covers gap ∧ CharClass.inLine.Covers parameters ∧
            Matches arrowItems arrow := by
  have items :
      Creation.function.pattern.items =
        .one (.literal '{') :: .many .longest .space :: .one (.literal '(') ::
          .many .shortest .inLine :: arrowItems :=
    rfl
  rw [items]
  simp only [matches_one_iff, matches_many_iff]
  constructor
  · rintro ⟨opening, _, rfl, isOpening, gap, _, rfl, gapCovered, parenthesis, _, rfl,
      isParenthesis, parameters, arrow, rfl, covered, matching⟩
    simp only [CharClass.contains, decide_eq_true_eq] at isOpening isParenthesis
    subst isOpening isParenthesis
    exact ⟨gap, parameters, arrow, rfl, gapCovered, covered, matching⟩
  · rintro ⟨gap, parameters, arrow, rfl, gapCovered, covered, matching⟩
    exact
      ⟨'{', _, rfl, by decide, gap, _, rfl, gapCovered, '(', _, rfl, by decide, parameters, arrow,
        rfl, covered, matching⟩

/-- A function within another one begins behind the first parenthesis of it. -/
private theorem exists_behind_parenthesis
    {front gap rest more : List Char}
    (nonempty : front ≠ [])
    (gapCovered : CharClass.space.Covers gap)
    (division : front ++ '{' :: more = '{' :: (gap ++ '(' :: rest)) :
    ∃ between, front = '{' :: (gap ++ '(' :: between) ∧ rest = between ++ '{' :: more := by
  obtain ⟨first, front, rfl⟩ := List.exists_cons_of_ne_nil nonempty
  rw [List.cons_append] at division
  injection division with isOpening division
  obtain ⟨between, rfl, behindGap⟩ :=
    gapCovered.split_at_outside (by decide : CharClass.space.contains '{' = false)
      division.symm
  cases between with
  | nil =>
      injection behindGap with impossible _
      exact absurd impossible (by decide)
  | cons second between =>
      injection behindGap with isParenthesis restShape
      exact ⟨between, by rw [isOpening, isParenthesis], restShape⟩

private theorem exists_braces_of_matches_function
    {text : List Char} (matching : Matches Creation.function.pattern.items text) :
    ∃ inside, text = '{' :: (inside ++ ['}']) := by
  obtain ⟨gap, parameters, _, rfl, _, _, arrowMatching⟩ := (matches_function_iff text).mp matching
  obtain ⟨firstGap, secondGap, result, rfl, _⟩ := (matches_arrowItems_iff _).mp arrowMatching
  refine
    ⟨gap ++ '(' ::
      (parameters ++ ')' :: (firstGap ++ '=' :: '>' :: (secondGap ++ result))), ?_⟩
  simp

/-- A function within the result of another one may end both of them. -/
theorem matches_arrowItems_of_function_within
    {lead inner back : List Char}
    (innerMatching : Matches Creation.function.pattern.items inner)
    (matching : Matches arrowItems (lead ++ (inner ++ back))) :
    Matches arrowItems (lead ++ inner) := by
  obtain ⟨inside, rfl⟩ := exists_braces_of_matches_function innerMatching
  obtain ⟨firstGap, secondGap, result, division, firstCovered, secondCovered, covered⟩ :=
    (matches_arrowItems_iff _).mp matching
  have absent : '{' ∉ ')' :: (firstGap ++ ('=' :: '>' :: secondGap)) := by
    have notFirst : '{' ∉ firstGap := by
      intro member
      exact absurd (firstCovered '{' member) (by decide)
    have notSecond : '{' ∉ secondGap := by
      intro member
      exact absurd (secondCovered '{' member) (by decide)
    simp [notFirst, notSecond]
  have regrouped :
      ')' :: (firstGap ++ ('=' :: '>' :: secondGap)) ++ (result ++ ['}']) =
        lead ++ '{' :: (inside ++ '}' :: back) := by
    simpa using division.symm
  obtain ⟨between, rfl, resultShape⟩ := exists_behind_of_not_mem absent regrouped
  have inLine : CharClass.inLine.Covers (result ++ ['}']) := by
    rw [covers_append_iff]
    exact ⟨covered, by decide⟩
  rw [resultShape, covers_append_iff, covers_cons_iff, covers_append_iff] at inLine
  apply (matches_arrowItems_iff _).mpr
  refine
    ⟨firstGap, secondGap, between ++ '{' :: inside, by simp, firstCovered, secondCovered, ?_⟩
  rw [covers_append_iff, covers_cons_iff]
  exact ⟨inLine.1, inLine.2.1, inLine.2.2.1⟩

/-- White space behind a brace within the parameters of a function ends before they do. -/
private theorem covers_inLine_of_brace_in_parameters
    {within arrow gap rest : List Char}
    (matching : Matches arrowItems arrow)
    (withinCovered : CharClass.inLine.Covers within)
    (gapCovered : CharClass.space.Covers gap)
    (division : gap ++ rest = within ++ arrow) :
    CharClass.inLine.Covers gap := by
  obtain ⟨firstGap, secondGap, result, rfl, _⟩ := (matches_arrowItems_iff _).mp matching
  obtain ⟨later, rfl, _⟩ := gapCovered.split_at_outside (by decide) division
  exact ((covers_append_iff _ _ _).mp withinCovered).1

/-- An inline function can be ended by the brace of one that begins within it. -/
theorem isOrderly_function : Creation.function.pattern.IsOrderly := by
  apply Pattern.IsOrderly.of_nested
  intro before front inner back after nonempty spans innerSpans
  obtain ⟨gap, parameters, arrow, division, gapCovered, covered, matching⟩ :=
    (matches_function_iff _).mp spans.1
  obtain ⟨innerGap, innerParameters, innerArrow, innerShape, innerGapCovered, innerCovered,
      innerMatching⟩ :=
    (matches_function_iff inner).mp innerSpans.1
  obtain ⟨between, rfl, behind⟩ :
      ∃ between,
        front = '{' :: (gap ++ '(' :: between) ∧
          parameters ++ arrow = between ++ (inner ++ back) := by
    rw [innerShape, List.cons_append] at division ⊢
    exact exists_behind_parenthesis nonempty gapCovered division
  refine ⟨(matches_function_iff _).mpr ?_, rfl, rfl⟩
  -- The inner function begins behind the parameters of the outer one or within them.
  rcases List.append_eq_append_iff.mp behind with
    ⟨lead, rfl, arrowShape⟩ | ⟨within, parametersShape, restShape⟩
  · rw [arrowShape] at matching
    exact
      ⟨gap, parameters, lead ++ inner, by simp, gapCovered, covered,
        matches_arrowItems_of_function_within innerSpans.1 matching⟩
  · rw [innerShape, List.cons_append] at restShape
    cases within with
    | nil =>
        obtain ⟨_, _, _, rfl, _⟩ := (matches_arrowItems_iff _).mp matching
        injection restShape with impossible _
        exact absurd impossible (by decide)
    | cons first within =>
        rw [List.cons_append, List.append_assoc] at restShape
        injection restShape with isOpening restShape
        rw [parametersShape, covers_append_iff, covers_cons_iff] at covered
        have gapInLine :=
          covers_inLine_of_brace_in_parameters matching covered.2.2 innerGapCovered restShape
        have parenthesis : CharClass.inLine.contains '(' = true := by
          decide
        refine
          ⟨gap, between ++ '{' :: (innerGap ++ '(' :: innerParameters), innerArrow, ?_,
            gapCovered, ?_, innerMatching⟩
        · rw [innerShape]
          simp
        · rw [isOpening]
          simp only [covers_append_iff, covers_cons_iff]
          exact ⟨covered.1, covered.2.1, gapInLine, parenthesis, innerCovered⟩

end Inline.Creation

/-! ## Scans that take as many matches as possible -/

/-- The patterns whose matches are counted or reported one by one, wherever they stand. -/
def countedPatterns : List Pattern :=
  [Imports.call, Inline.Creation.object.pattern, Inline.Creation.function.pattern]

/-- A pattern of which a scan takes as many matches as possible. -/
structure IsCounted (pattern : Pattern) : Prop where
  impartial : pattern.IsImpartial
  orderly : pattern.IsOrderly
  unanchored : pattern.IsUnanchored

theorem isCounted_of_mem_countedPatterns
    {pattern : Pattern} (counted : pattern ∈ countedPatterns) : IsCounted pattern := by
  simp only [countedPatterns, List.mem_cons, List.not_mem_nil, or_false] at counted
  rcases counted with rfl | rfl | rfl
  · exact ⟨Imports.isImpartial_call, Imports.isOrderly_call, rfl, rfl⟩
  · exact ⟨Inline.Creation.isImpartial_object, Inline.Creation.isOrderly_object, rfl, rfl⟩
  · exact ⟨Inline.Creation.isImpartial_function, Inline.Creation.isOrderly_function, rfl, rfl⟩

/-- No choice of matches that lie side by side is larger than the scan, and so the scan of two texts
in a row takes at least as many matches as the scans of both of them. -/
theorem occurrences_pack_most
    {pattern : Pattern} (counted : pattern ∈ countedPatterns) (text first second : List Char) :
    IsGreatest (pattern.packingSizes text) (pattern.occurrences text).length ∧
      (pattern.occurrences first).length + (pattern.occurrences second).length ≤
        (pattern.occurrences (first ++ second)).length := by
  have isCounted := isCounted_of_mem_countedPatterns counted
  constructor
  · exact isCounted.impartial.isGreatest_packingSizes isCounted.orderly text
  · exact
      isCounted.unanchored.length_occurrences_append isCounted.impartial isCounted.orderly first
        second

/-- Of three objects that hold one another only one can be taken, and a second one behind them.  A
third one stands across the border of two texts that hold one object each. -/
theorem occurrences_pack_most_braces :
    Inline.Creation.object.pattern ∈ countedPatterns ∧
      IsGreatest
        (Inline.Creation.object.pattern.packingSizes
          "\x7b\x7b\x7b\x7b\x7d\x7d\x7d\x7d \x7b\n\x7ba\x7d\x7d".toList) 2 ∧
      1 + 1 ≤
        (Inline.Creation.object.pattern.occurrences
          ("\x7b\x7b\x7d\x7d\x7b".toList ++ "\x7b\x7d\x7d\x7b\x7b\x7d\x7d".toList)).length := by
  obtain ⟨greatest, _⟩ :=
    occurrences_pack_most (by decide : Inline.Creation.object.pattern ∈ countedPatterns)
      "\x7b\x7b\x7b\x7b\x7d\x7d\x7d\x7d \x7b\n\x7ba\x7d\x7d".toList [] []
  obtain ⟨_, together⟩ :=
    occurrences_pack_most (by decide : Inline.Creation.object.pattern ∈ countedPatterns) []
      "\x7b\x7b\x7d\x7d\x7b".toList "\x7b\x7d\x7d\x7b\x7b\x7d\x7d".toList
  exact ⟨by decide, greatest, together⟩

end SourceCritic.Rule
