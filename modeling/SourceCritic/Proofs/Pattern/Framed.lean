import SourceCritic.Proofs.Pattern.Scan

/-!
# Framed patterns

A pattern is framed if whatever it matches begins and ends with a character that is not white
space.  Around such a match, a line break does as well as an end of the text: no anchor can tell
them apart.  So a text may be cut at a line break without changing the spans on either side.
-/

namespace SourceCritic

/-- Behind a character that is not white space, a line break is as good as the end of the text. -/
theorem Anchor.holds_lineBreak_after
    (anchor : Anchor) {edge broken : Char}
    (solid : CharClass.space.contains edge = false)
    (breaks : Text.isLineBreak broken = true) :
    anchor.holds (some edge) (some broken) = anchor.holds (some edge) none := by
  have notNewline : edge ≠ '\n' := by
    rintro rfl
    exact absurd solid (by decide)
  have notReturn : edge ≠ '\r' := by
    rintro rfl
    exact absurd solid (by decide)
  have cases : broken = '\n' ∨ broken = '\r' := by
    simpa [Text.isLineBreak] using breaks
  have notWord : Text.isWordCharacter broken = false := by
    rcases cases with rfl | rfl <;> decide
  rcases cases with rfl | rfl <;>
    cases anchor <;> simp [Anchor.holds, notNewline, notReturn, notWord]

/-- In front of a character that is not white space, a `'\n'` is as good as the beginning of the
text. -/
private theorem Anchor.holds_newline_before
    (anchor : Anchor) {head : Char}
    (solid : CharClass.space.contains head = false) :
    anchor.holds (some '\n') (some head) = anchor.holds none (some head) := by
  have notNewline : head ≠ '\n' := by
    rintro rfl
    exact absurd solid (by decide)
  have notReturn : head ≠ '\r' := by
    rintro rfl
    exact absurd solid (by decide)
  have notWord : Text.isWordCharacter '\n' = false := by
    decide
  cases anchor <;> simp [Anchor.holds, notNewline, notReturn, notWord]

namespace Pattern

/-- Every match begins and ends with a character that is not white space. -/
structure IsFramed (pattern : Pattern) : Prop where
  opening :
    ∀ {matched : List Char}, Matches pattern.items matched →
      ∃ head rest, matched = head :: rest ∧ CharClass.space.contains head = false
  closing :
    ∀ {matched : List Char}, Matches pattern.items matched →
      ∃ front edge, matched = front ++ [edge] ∧ CharClass.space.contains edge = false

/-- It is enough that the first and the last item take no white space. -/
theorem IsFramed.of_ends
    {pattern : Pattern} {first last : CharClass}
    (opens : pattern.items.head? = some (.one first))
    (closes : pattern.items.getLast? = some (.one last))
    (firstSolid : first.IsDisjoint .space)
    (lastSolid : last.IsDisjoint .space) :
    pattern.IsFramed := by
  constructor
  · intro matched matching
    obtain ⟨later, shape⟩ := List.head?_eq_some_iff.mp opens
    rw [shape, matches_one_iff] at matching
    obtain ⟨head, rest, rfl, belongs, _⟩ := matching
    exact ⟨head, rest, rfl, firstSolid head belongs⟩
  · intro matched matching
    obtain ⟨earlier, shape⟩ := List.getLast?_eq_some_iff.mp closes
    rw [shape] at matching
    obtain ⟨front, back, rfl, _, remaining⟩ := exists_division_of_matches_append matching
    rw [matches_one_iff] at remaining
    obtain ⟨edge, rest, rfl, belongs, empty⟩ := remaining
    rw [(matches_nil_iff rest).mp empty]
    exact ⟨front, edge, rfl, lastSolid edge belongs⟩

/-! ## Texts that are joined by a line break -/

/-- A line break and a text behind it do not matter to the spans of a framed pattern. -/
private theorem IsFramed.spans_append_newline_iff
    {pattern : Pattern} (framed : pattern.IsFramed)
    (before matched after added : List Char) :
    pattern.Spans before matched (after ++ '\n' :: added) ↔
      pattern.Spans before matched after := by
  unfold Spans
  refine and_congr_right fun matching => ?_
  obtain ⟨head, rest, opened, _⟩ := framed.opening matching
  obtain ⟨front, edge, closed, solid⟩ := framed.closing matching
  have sameFirst :
      (matched ++ (after ++ '\n' :: added)).head? = (matched ++ after).head? := by
    rw [opened]
    rfl
  rw [sameFirst]
  refine and_congr_right fun _ => ?_
  cases after with
  | cons next later => rfl
  | nil =>
      rw [closed, ← List.append_assoc, List.getLast?_concat, List.nil_append, List.head?_cons,
        List.head?_nil, pattern.last.holds_lineBreak_after solid (by decide)]

/-- A text and a line break in front of a span of a framed pattern do not matter to it. -/
private theorem IsFramed.spans_newline_append_iff
    {pattern : Pattern} (framed : pattern.IsFramed)
    (added before matched after : List Char) :
    pattern.Spans (added ++ '\n' :: before) matched after ↔
      pattern.Spans before matched after := by
  unfold Spans
  refine and_congr_right fun matching => ?_
  obtain ⟨head, rest, rfl, solid⟩ := framed.opening matching
  have sameLast :
      (added ++ '\n' :: before ++ (head :: rest)).getLast? =
        (before ++ (head :: rest)).getLast? := by
    simp [List.getLast?_append, List.getLast?_cons]
  rw [sameLast]
  refine and_congr_left fun _ => ?_
  rcases List.eq_nil_or_concat before with rfl | ⟨front, edge, rfl⟩
  · rw [List.getLast?_concat, List.getLast?_nil, List.cons_append, List.head?_cons,
      pattern.first.holds_newline_before solid]
  · rw [List.concat_eq_append, ← List.cons_append, ← List.append_assoc, List.getLast?_concat,
      List.getLast?_concat]

/-- A span stays one when a line break and more text follow. -/
theorem IsFramed.hasSpan_join_left
    {pattern : Pattern} (framed : pattern.IsFramed)
    {first : List Char} (second : List Char) {start stop : Nat}
    (spanned : pattern.HasSpan first start stop) :
    pattern.HasSpan (first ++ '\n' :: second) start stop := by
  obtain ⟨before, matched, after, rfl, rfl, rfl, spans⟩ := spanned
  exact
    ⟨before, matched, after ++ '\n' :: second, by simp, rfl, rfl,
      (framed.spans_append_newline_iff before matched after second).mpr spans⟩

/-- A span moves along with its text when more text and a line break come before it. -/
theorem IsFramed.hasSpan_join_right
    {pattern : Pattern} (framed : pattern.IsFramed)
    (first : List Char) {second : List Char} {start stop : Nat}
    (spanned : pattern.HasSpan second start stop) :
    pattern.HasSpan (first ++ '\n' :: second)
      (first.length + 1 + start) (first.length + 1 + stop) := by
  obtain ⟨before, matched, after, rfl, rfl, rfl, spans⟩ := spanned
  refine
    ⟨first ++ '\n' :: before, matched, after, by simp, ?_, ?_,
      (framed.spans_newline_append_iff first before matched after).mpr spans⟩
  · rw [List.length_append, List.length_cons]
    omega
  · simp only [List.length_append, List.length_cons]
    omega

/-! ## Scans of texts that are joined by a line break -/

private theorem IsFramed.family_join_left
    {pattern : Pattern} (framed : pattern.IsFramed)
    {first : List Char} (second : List Char) {position : Nat} {spans : List (Nat × Nat)}
    (family : Family pattern first position spans) :
    Family pattern (first ++ '\n' :: second) position spans := by
  induction family with
  | nil => exact Family.nil
  | cons reached spanned _ inductionHypothesis =>
      exact Family.cons reached (framed.hasSpan_join_left second spanned) inductionHypothesis

private theorem IsFramed.family_join_right
    {pattern : Pattern} (framed : pattern.IsFramed)
    (first : List Char) {second : List Char} {position : Nat} {spans : List (Nat × Nat)}
    (family : Family pattern second position spans) :
    Family pattern (first ++ '\n' :: second) (first.length + 1 + position)
      (spans.map fun span => (first.length + 1 + span.1, first.length + 1 + span.2)) := by
  induction family with
  | nil => exact Family.nil
  | cons reached spanned _ inductionHypothesis =>
      exact
        Family.cons (Nat.add_le_add_left reached _) (framed.hasSpan_join_right first spanned)
          inductionHypothesis

/-- A text that is joined to another one has as many occurrences as either of them. -/
theorem IsFramed.length_occurrences_le_join
    {pattern : Pattern} (framed : pattern.IsFramed) (impartial : pattern.IsImpartial)
    (orderly : pattern.IsOrderly) (first second : List Char) :
    (pattern.occurrences first).length ≤
        (pattern.occurrences (first ++ '\n' :: second)).length ∧
      (pattern.occurrences second).length ≤
        (pattern.occurrences (first ++ '\n' :: second)).length := by
  have scan := impartial.leftmostShortest_occurrences (first ++ '\n' :: second)
  have firstFamily :=
    framed.family_join_left second (impartial.leftmostShortest_occurrences first).family
  have secondFamily :=
    framed.family_join_right first (impartial.leftmostShortest_occurrences second).family
  have firstCounted := scan.length_le orderly firstFamily (Nat.zero_le _)
  have secondCounted := scan.length_le orderly secondFamily (Nat.zero_le _)
  simp only [List.length_map] at firstCounted secondCounted
  exact ⟨firstCounted, secondCounted⟩

end Pattern

end SourceCritic
