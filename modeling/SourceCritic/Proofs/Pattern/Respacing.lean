import Mathlib.Data.List.Forall2
import SourceCritic.Proofs.Pattern.Framed

/-!
# Respaced texts

A respacing aligns two texts that differ only in the white space at the ends of their lines: each
`'\n'` of the one text stands for a gap of the other, which is white space that begins with a line
break and ends with a `'\n'`.

A gap can only be matched by a repetition of white space, and then only as a whole.  So a pattern
whose other items do not take white space has the same occurrences in both texts, at places that
correspond to each other.
-/

namespace SourceCritic

/-- White space that may stand for a `'\n'`. -/
structure IsGap (spaces : List Char) : Prop where
  covered : CharClass.space.Covers spaces
  opening : ∃ head rest, spaces = head :: rest ∧ Text.isLineBreak head = true
  closing : ∃ front, spaces = front ++ ['\n']

/-- A character of a text together with what stands in its place in another text. -/
inductive Stretch where
  | kept (character : Char) (notNewline : character ≠ '\n')
  | gap (spaces : List Char) (isGap : IsGap spaces)

namespace Stretch

/-- The character in the first text. -/
def source : Stretch → Char
  | kept character _ => character
  | gap _ _ => '\n'

/-- What stands in its place in the second text. -/
def target : Stretch → List Char
  | kept character _ => [character]
  | gap spaces _ => spaces

private theorem target_ne_nil (stretch : Stretch) : stretch.target ≠ [] := by
  cases stretch with
  | kept character _ => simp [target]
  | gap spaces isGap =>
      obtain ⟨head, rest, rfl, _⟩ := isGap.opening
      simp [target]

end Stretch

/-- An alignment of two texts. -/
abbrev Respacing : Type :=
  List Stretch

namespace Respacing

/-- The first text of an alignment. -/
def source (respacing : Respacing) : List Char :=
  respacing.map Stretch.source

/-- The second text of an alignment. -/
def target (respacing : Respacing) : List Char :=
  respacing.flatMap Stretch.target

@[simp]
theorem source_nil : source [] = [] :=
  rfl

@[simp]
theorem target_nil : target [] = [] :=
  rfl

@[simp]
theorem source_cons (stretch : Stretch) (later : Respacing) :
    source (stretch :: later) = stretch.source :: source later :=
  rfl

@[simp]
theorem target_cons (stretch : Stretch) (later : Respacing) :
    target (stretch :: later) = stretch.target ++ target later :=
  rfl

@[simp]
theorem source_append (first second : Respacing) :
    source (first ++ second) = source first ++ source second :=
  List.map_append

@[simp]
theorem target_append (first second : Respacing) :
    target (first ++ second) = target first ++ target second :=
  List.flatMap_append

@[simp]
theorem length_source (respacing : Respacing) : (source respacing).length = respacing.length :=
  List.length_map _

private theorem target_eq_nil_iff (respacing : Respacing) :
    target respacing = [] ↔ respacing = [] := by
  cases respacing with
  | nil => simp
  | cons stretch later => simp [stretch.target_ne_nil]

/-- Where the first text is divided, the alignment is divided. -/
theorem exists_of_source_eq_append
    {respacing : Respacing} {front back : List Char}
    (division : source respacing = front ++ back) :
    ∃ first second,
      respacing = first ++ second ∧ source first = front ∧ source second = back :=
  List.map_eq_append_iff.mp division

/-- The alignment goes on with a kept character where the second text goes on with one that is not
white space. -/
theorem exists_kept_of_target_eq_cons
    {respacing : Respacing} {head : Char} {rest : List Char}
    (solid : CharClass.space.contains head = false)
    (division : target respacing = head :: rest) :
    ∃ notNewline later,
      respacing = .kept head notNewline :: later ∧ target later = rest := by
  cases respacing with
  | nil => cases division
  | cons stretch later =>
      cases stretch with
      | kept character notNewline =>
          rw [target_cons, Stretch.target, List.cons_append, List.nil_append] at division
          injection division with sameHead sameRest
          subst sameHead
          exact ⟨notNewline, later, rfl, sameRest⟩
      | gap spaces isGap =>
          obtain ⟨first, others, rfl, breaks⟩ := isGap.opening
          rw [target_cons, Stretch.target, List.cons_append] at division
          injection division with sameHead _
          rw [← sameHead, CharClass.contains_space_of_isLineBreak breaks] at solid
          cases solid

theorem exists_kept_of_source_eq_cons
    {respacing : Respacing} {head : Char} {rest : List Char}
    (notNewline : head ≠ '\n')
    (division : source respacing = head :: rest) :
    ∃ later, respacing = .kept head notNewline :: later ∧ source later = rest := by
  cases respacing with
  | nil => cases division
  | cons stretch later =>
      rw [source_cons] at division
      injection division with sameHead sameRest
      cases stretch with
      | kept character _ =>
          have same : character = head := sameHead
          subst same
          exact ⟨later, rfl, sameRest⟩
      | gap spaces _ => exact absurd sameHead.symm notNewline

/-- A division of the second text in front of a character that is not white space divides the
alignment. -/
theorem exists_of_target_eq_append_cons
    {respacing : Respacing} {before rest : List Char} {head : Char}
    (solid : CharClass.space.contains head = false)
    (division : target respacing = before ++ head :: rest) :
    ∃ first second,
      respacing = first ++ second ∧ target first = before ∧ target second = head :: rest := by
  induction respacing generalizing before with
  | nil => simp at division
  | cons stretch later inductionHypothesis =>
      rw [target_cons] at division
      rcases List.append_eq_append_iff.mp division with
        ⟨between, rfl, remaining⟩ | ⟨between, shape, remaining⟩
      · obtain ⟨first, second, rfl, sameFirst, sameSecond⟩ := inductionHypothesis remaining
        exact ⟨stretch :: first, second, rfl, by rw [target_cons, sameFirst], sameSecond⟩
      · cases between with
        | nil =>
            rw [List.append_nil] at shape
            exact ⟨[stretch], later, rfl, by simp [shape], remaining.symm⟩
        | cons first others =>
            rw [List.cons_append] at remaining
            injection remaining with sameHead _
            cases stretch with
            | kept character _ =>
                rw [Stretch.target, eq_comm, List.append_eq_singleton_iff] at shape
                rcases shape with ⟨rfl, _⟩ | ⟨_, impossible⟩
                · exact ⟨[], _, rfl, rfl, division⟩
                · cases impossible
            | gap spaces isGap =>
                have inside := isGap.covered head (by
                  rw [Stretch.target] at shape
                  rw [shape, sameHead]
                  simp)
                rw [solid] at inside
                cases inside

/-- White space stands for white space. -/
theorem covers_space_target_iff (respacing : Respacing) :
    CharClass.space.Covers (target respacing) ↔
      CharClass.space.Covers (source respacing) := by
  induction respacing with
  | nil => simp
  | cons stretch later inductionHypothesis =>
      cases stretch with
      | kept character _ =>
          simp [Stretch.source, Stretch.target, inductionHypothesis]
      | gap spaces isGap =>
          have newline : CharClass.space.contains '\n' = true := by
            decide
          simp [Stretch.source, Stretch.target, inductionHypothesis, isGap.covered, newline]

/-- Only line breaks are replaced. -/
theorem target_eq_source
    {respacing : Respacing} (inLine : '\n' ∉ source respacing) :
    target respacing = source respacing := by
  induction respacing with
  | nil => rfl
  | cons stretch later inductionHypothesis =>
      rw [source_cons, List.mem_cons, not_or] at inLine
      cases stretch with
      | kept character _ =>
          rw [target_cons, source_cons, inductionHypothesis inLine.2]
          rfl
      | gap spaces _ => exact absurd rfl inLine.1

end Respacing

/-! ## Items that do not see the gaps -/

/-- Items that cannot match what is left of a gap. -/
inductive Barrier : List Item → Prop where
  | one {taken : CharClass} {items : List Item} :
      taken.IsDisjoint .space →
      Barrier (.one taken :: items)
  | many {preference : Preference} {taken : CharClass} {items : List Item} :
      taken.contains '\n' = false →
      Barrier items →
      Barrier (.many preference taken :: items)

private theorem Barrier.not_matches
    {items : List Item} (barrier : Barrier items)
    {front matched after rest : List Char}
    (covered : CharClass.space.Covers front)
    (division : matched ++ after = front ++ '\n' :: rest) :
    ¬ Matches items matched := by
  induction barrier generalizing front matched with
  | @one taken items disjoint =>
      intro matching
      obtain ⟨head, later, rfl, belongs, _⟩ := (matches_one_iff taken items matched).mp matching
      have solid := disjoint head belongs
      cases front with
      | nil =>
          rw [List.cons_append, List.nil_append] at division
          injection division with sameHead _
          rw [sameHead] at solid
          exact absurd solid (by decide)
      | cons first others =>
          rw [List.cons_append, List.cons_append] at division
          injection division with sameHead _
          rw [CharClass.covers_cons_iff, ← sameHead, solid] at covered
          cases covered.1
  | @many preference taken items outside _ inductionHypothesis =>
      intro matching
      obtain ⟨run, remaining, rfl, runCovered, remainingMatches⟩ :=
        (matches_many_iff preference taken items matched).mp matching
      rw [List.append_assoc] at division
      obtain ⟨between, rfl, nextDivision⟩ := runCovered.split_at_outside outside division
      rw [CharClass.covers_append_iff] at covered
      exact inductionHypothesis covered.2 nextDivision remainingMatches

/-- Items that match a gap as a whole or not at all. -/
inductive Respaceable : List Item → Prop where
  | nil : Respaceable []
  | one {taken : CharClass} {items : List Item} :
      taken.IsDisjoint .space →
      Respaceable items →
      Respaceable (.one taken :: items)
  | optional {taken : CharClass} {items : List Item} :
      taken.IsDisjoint .space →
      Respaceable items →
      Respaceable (.optional taken :: items)
  | many {preference : Preference} {taken : CharClass} {items : List Item} :
      (∀ tested, Text.isLineBreak tested = true → taken.contains tested = false) →
      Respaceable items →
      Respaceable (.many preference taken :: items)
  | spaces {preference : Preference} {items : List Item} :
      Barrier items →
      Respaceable items →
      Respaceable (.many preference .space :: items)
  | someSpaces {preference : Preference} {items : List Item} :
      Barrier items →
      Respaceable items →
      Respaceable (.one .space :: .many preference .space :: items)

theorem Respaceable.text
    {expected : String} {items : List Item}
    (covered : CharClass.word.Covers expected.toList)
    (respaceable : Respaceable items) :
    Respaceable (Item.text expected ++ items) := by
  unfold Item.text
  generalize expected.toList = characters at covered ⊢
  induction characters with
  | nil => exact respaceable
  | cons head rest inductionHypothesis =>
      rw [CharClass.covers_cons_iff] at covered
      have solid := CharClass.isDisjoint_word_space head covered.1
      exact Respaceable.one (CharClass.isDisjoint_literal solid) (inductionHypothesis covered.2)

namespace Respacing

/-- White space in front of a barrier ends where a stretch of the alignment ends. -/
private theorem exists_of_target_eq_spaces_append
    {respacing : Respacing} {items : List Item} {run remaining after : List Char}
    (barrier : Barrier items)
    (covered : CharClass.space.Covers run)
    (matching : Matches items remaining)
    (division : target respacing = run ++ (remaining ++ after)) :
    ∃ first second,
      respacing = first ++ second ∧ target first = run ∧
        target second = remaining ++ after := by
  induction respacing generalizing run with
  | nil =>
      obtain ⟨rfl, empty⟩ := List.nil_eq_append_iff.mp division
      exact ⟨[], [], rfl, rfl, empty.symm⟩
  | cons stretch later inductionHypothesis =>
      rw [target_cons] at division
      rcases List.append_eq_append_iff.mp division with
        ⟨between, rfl, laterDivision⟩ | ⟨between, shape, restDivision⟩
      · rw [CharClass.covers_append_iff] at covered
        obtain ⟨first, second, rfl, sameFirst, sameSecond⟩ :=
          inductionHypothesis covered.2 laterDivision
        exact ⟨stretch :: first, second, rfl, by rw [target_cons, sameFirst], sameSecond⟩
      · cases between with
        | nil =>
            rw [List.append_nil] at shape
            exact ⟨[stretch], later, rfl, by simp [shape], restDivision.symm⟩
        | cons head others =>
            cases stretch with
            | kept character _ =>
                rw [Stretch.target, eq_comm, List.append_eq_singleton_iff] at shape
                rcases shape with ⟨rfl, _⟩ | ⟨_, impossible⟩
                · exact ⟨[], _, rfl, rfl, division⟩
                · cases impossible
            | gap spaces isGap =>
                -- The run stops within the gap, where the barrier cannot go on.
                obtain ⟨front, closing⟩ := isGap.closing
                obtain ⟨left, edge, shapeLeft⟩ :=
                  (List.eq_nil_or_concat (head :: others)).resolve_left (by simp)
                rw [List.concat_eq_append] at shapeLeft
                rw [Stretch.target, closing, shapeLeft, ← List.append_assoc] at shape
                obtain ⟨sameFront, sameEdge⟩ := List.append_inj' shape rfl
                have leftCovered : CharClass.space.Covers left := by
                  have whole := isGap.covered
                  rw [closing, sameFront] at whole
                  simp only [CharClass.covers_append_iff] at whole
                  exact whole.1.2
                rw [shapeLeft, ← sameEdge, List.append_assoc] at restDivision
                exact (barrier.not_matches leftCovered restDivision matching).elim

private theorem exists_of_target_eq_run_append
    {respacing : Respacing} {taken : CharClass} {run rest : List Char}
    (avoids : ∀ tested, Text.isLineBreak tested = true → taken.contains tested = false)
    (covered : taken.Covers run)
    (division : target respacing = run ++ rest) :
    ∃ first second,
      respacing = first ++ second ∧ target first = run ∧ source first = run ∧
        target second = rest := by
  induction run generalizing respacing with
  | nil => exact ⟨[], respacing, rfl, rfl, rfl, division⟩
  | cons head tail inductionHypothesis =>
      rw [CharClass.covers_cons_iff] at covered
      cases respacing with
      | nil => cases division
      | cons stretch later =>
          cases stretch with
          | kept character notNewline =>
              rw [target_cons, Stretch.target, List.cons_append, List.cons_append] at division
              injection division with sameHead sameRest
              obtain ⟨first, second, rfl, sameTarget, sameSource, remaining⟩ :=
                inductionHypothesis covered.2 sameRest
              refine ⟨.kept character notNewline :: first, second, rfl, ?_, ?_, remaining⟩
              · rw [target_cons, sameTarget, Stretch.target, sameHead]
                rfl
              · rw [source_cons, sameSource, Stretch.source, sameHead]
          | gap spaces isGap =>
              obtain ⟨first, others, rfl, breaks⟩ := isGap.opening
              rw [target_cons, Stretch.target, List.cons_append, List.cons_append] at division
              injection division with sameHead _
              rw [← sameHead, avoids first breaks] at covered
              cases covered.1

end Respacing

namespace Respaceable

open Respacing

/-- What items match in the second text is aligned with something that they match in the first. -/
private theorem exists_of_matches_target
    {items : List Item} (respaceable : Respaceable items)
    {respacing : Respacing} {matched after : List Char}
    (division : target respacing = matched ++ after)
    (matching : Matches items matched) :
    ∃ first second,
      respacing = first ++ second ∧ target first = matched ∧ target second = after ∧
        Matches items (source first) := by
  induction respaceable generalizing respacing matched with
  | nil =>
      cases matching
      exact ⟨[], respacing, rfl, rfl, division, Matches.nil⟩
  | @one taken items disjoint _ inductionHypothesis =>
      obtain ⟨head, rest, rfl, belongs, remaining⟩ :=
        (matches_one_iff taken items matched).mp matching
      obtain ⟨notNewline, later, rfl, laterDivision⟩ :=
        exists_kept_of_target_eq_cons (disjoint head belongs) division
      obtain ⟨first, second, rfl, rfl, sameAfter, sourceMatches⟩ :=
        inductionHypothesis laterDivision remaining
      exact
        ⟨.kept head notNewline :: first, second, rfl, rfl, sameAfter,
          Matches.one belongs sourceMatches⟩
  | @optional taken items disjoint _ inductionHypothesis =>
      rcases (matches_optional_iff taken items matched).mp matching with
        remaining | ⟨head, rest, rfl, belongs, remaining⟩
      · obtain ⟨first, second, rfl, sameMatched, sameAfter, sourceMatches⟩ :=
          inductionHypothesis division remaining
        exact ⟨first, second, rfl, sameMatched, sameAfter, Matches.absent sourceMatches⟩
      · obtain ⟨notNewline, later, rfl, laterDivision⟩ :=
          exists_kept_of_target_eq_cons (disjoint head belongs) division
        obtain ⟨first, second, rfl, rfl, sameAfter, sourceMatches⟩ :=
          inductionHypothesis laterDivision remaining
        exact
          ⟨.kept head notNewline :: first, second, rfl, rfl, sameAfter,
            Matches.present belongs sourceMatches⟩
  | @many preference taken items avoids _ inductionHypothesis =>
      obtain ⟨run, rest, rfl, covered, remaining⟩ :=
        (matches_many_iff preference taken items matched).mp matching
      rw [List.append_assoc] at division
      obtain ⟨front, back, rfl, sameTarget, sameSource, backDivision⟩ :=
        exists_of_target_eq_run_append avoids covered division
      obtain ⟨first, second, rfl, rfl, sameAfter, sourceMatches⟩ :=
        inductionHypothesis backDivision remaining
      refine
        ⟨front ++ first, second, by rw [List.append_assoc], by rw [target_append, sameTarget],
          sameAfter, ?_⟩
      rw [source_append, sameSource]
      exact Matches.run_append covered (Matches.finished sourceMatches)
  | @spaces preference items barrier _ inductionHypothesis =>
      obtain ⟨run, rest, rfl, covered, remaining⟩ :=
        (matches_many_iff preference .space items matched).mp matching
      rw [List.append_assoc] at division
      obtain ⟨front, back, rfl, sameTarget, backDivision⟩ :=
        exists_of_target_eq_spaces_append barrier covered remaining division
      obtain ⟨first, second, rfl, rfl, sameAfter, sourceMatches⟩ :=
        inductionHypothesis backDivision remaining
      refine
        ⟨front ++ first, second, by rw [List.append_assoc], by rw [target_append, sameTarget],
          sameAfter, ?_⟩
      rw [← sameTarget, covers_space_target_iff] at covered
      rw [source_append]
      exact Matches.run_append covered (Matches.finished sourceMatches)
  | @someSpaces preference items barrier _ inductionHypothesis =>
      obtain ⟨run, rest, rfl, nonempty, covered, remaining⟩ :=
        (matches_one_many_iff preference .space items matched).mp matching
      rw [List.append_assoc] at division
      obtain ⟨front, back, rfl, sameTarget, backDivision⟩ :=
        exists_of_target_eq_spaces_append barrier covered remaining division
      obtain ⟨first, second, rfl, rfl, sameAfter, sourceMatches⟩ :=
        inductionHypothesis backDivision remaining
      refine
        ⟨front ++ first, second, by rw [List.append_assoc], by rw [target_append, sameTarget],
          sameAfter, ?_⟩
      rw [← sameTarget, covers_space_target_iff] at covered
      rw [source_append, matches_one_many_iff]
      refine ⟨source front, source first, rfl, ?_, covered, sourceMatches⟩
      intro empty
      apply nonempty
      rw [List.map_eq_nil_iff.mp empty] at sameTarget
      exact sameTarget.symm

private theorem matches_target
    {items : List Item} (respaceable : Respaceable items)
    {respacing : Respacing} (matching : Matches items (source respacing)) :
    Matches items (target respacing) := by
  have notNewline :
      ∀ {taken : CharClass} {head : Char}, taken.IsDisjoint .space →
        taken.contains head = true → head ≠ '\n' := by
    rintro taken head disjoint belongs rfl
    exact absurd (disjoint '\n' belongs) (by decide)
  induction respaceable generalizing respacing with
  | nil =>
      rw [matches_nil_iff, source, List.map_eq_nil_iff] at matching
      rw [matching]
      exact Matches.nil
  | @one taken items disjoint _ inductionHypothesis =>
      obtain ⟨head, rest, division, belongs, remaining⟩ :=
        (matches_one_iff taken items _).mp matching
      obtain ⟨later, rfl, rfl⟩ :=
        exists_kept_of_source_eq_cons (notNewline disjoint belongs) division
      exact Matches.one belongs (inductionHypothesis remaining)
  | @optional taken items disjoint _ inductionHypothesis =>
      rcases (matches_optional_iff taken items _).mp matching with
        remaining | ⟨head, rest, division, belongs, remaining⟩
      · exact Matches.absent (inductionHypothesis remaining)
      · obtain ⟨later, rfl, rfl⟩ :=
          exists_kept_of_source_eq_cons (notNewline disjoint belongs) division
        exact Matches.present belongs (inductionHypothesis remaining)
  | @many preference taken items avoids _ inductionHypothesis =>
      obtain ⟨run, rest, division, covered, remaining⟩ :=
        (matches_many_iff preference taken items _).mp matching
      obtain ⟨first, second, rfl, rfl, rfl⟩ := exists_of_source_eq_append division
      have inLine : '\n' ∉ source first := by
        intro member
        have inside := covered '\n' member
        rw [avoids '\n' (by decide)] at inside
        cases inside
      rw [target_append, target_eq_source inLine]
      exact Matches.run_append covered (Matches.finished (inductionHypothesis remaining))
  | @spaces preference items _ _ inductionHypothesis =>
      obtain ⟨run, rest, division, covered, remaining⟩ :=
        (matches_many_iff preference .space items _).mp matching
      obtain ⟨first, second, rfl, rfl, rfl⟩ := exists_of_source_eq_append division
      rw [← covers_space_target_iff] at covered
      rw [target_append]
      exact Matches.run_append covered (Matches.finished (inductionHypothesis remaining))
  | @someSpaces preference items _ _ inductionHypothesis =>
      obtain ⟨run, rest, division, nonempty, covered, remaining⟩ :=
        (matches_one_many_iff preference .space items _).mp matching
      obtain ⟨first, second, rfl, rfl, rfl⟩ := exists_of_source_eq_append division
      rw [← covers_space_target_iff] at covered
      rw [target_append, matches_one_many_iff]
      refine ⟨target first, target second, rfl, ?_, covered, inductionHypothesis remaining⟩
      intro empty
      rw [target_eq_nil_iff] at empty
      exact nonempty (by rw [empty, source_nil])

/-- Items match aligned texts together, if no gap stops them halfway. -/
theorem matches_target_iff
    {items : List Item} (respaceable : Respaceable items) (respacing : Respacing) :
    Matches items (target respacing) ↔ Matches items (source respacing) := by
  constructor
  · intro matching
    obtain ⟨first, second, rfl, _, empty, sourceMatches⟩ :=
      respaceable.exists_of_matches_target (List.append_nil _).symm matching
    rw [(target_eq_nil_iff second).mp empty, List.append_nil]
    exact sourceMatches
  · exact respaceable.matches_target

end Respaceable

/-! ## Spans and occurrences in aligned texts -/

namespace Respacing

private theorem getLast?_target (respacing : Respacing) :
    (target respacing).getLast? = (source respacing).getLast? := by
  rcases List.eq_nil_or_concat respacing with rfl | ⟨front, stretch, rfl⟩
  · rfl
  · rw [List.concat_eq_append, target_append, source_append, source_cons, source_nil,
      List.getLast?_concat, target_cons, target_nil, List.append_nil]
    cases stretch with
    | kept character _ => exact List.getLast?_concat
    | gap spaces isGap =>
        obtain ⟨others, rfl⟩ := isGap.closing
        rw [Stretch.target, ← List.append_assoc]
        exact List.getLast?_concat

/-- Behind a character that is not white space, no anchor sees which of the two texts follows. -/
private theorem holds_head?_target
    (anchor : Anchor) {edge : Char} (respacing : Respacing)
    (solid : CharClass.space.contains edge = false) :
    anchor.holds (some edge) (target respacing).head? =
      anchor.holds (some edge) (source respacing).head? := by
  cases respacing with
  | nil => rfl
  | cons stretch later =>
      cases stretch with
      | kept character _ => rfl
      | gap spaces isGap =>
          obtain ⟨head, rest, rfl, breaks⟩ := isGap.opening
          calc
            anchor.holds (some edge) (some head) = anchor.holds (some edge) none :=
              anchor.holds_lineBreak_after solid breaks
            _ = anchor.holds (some edge) (some '\n') :=
              (anchor.holds_lineBreak_after solid (by decide)).symm

/-- A framed pattern with respaceable items fits aligned parts of the two texts alike. -/
theorem spans_target_iff
    {pattern : Pattern} (framed : pattern.IsFramed)
    (respaceable : Respaceable pattern.items)
    (before matched after : Respacing) :
    pattern.Spans (target before) (target matched) (target after) ↔
      pattern.Spans (source before) (source matched) (source after) := by
  unfold Pattern.Spans
  rw [respaceable.matches_target_iff matched]
  refine and_congr_right fun matching => ?_
  obtain ⟨head, rest, opened, solid⟩ := framed.opening matching
  obtain ⟨front, edge, closed, edgeSolid⟩ := framed.closing matching
  have sameHead :
      (target matched ++ target after).head? = (source matched ++ source after).head? := by
    have notNewline : head ≠ '\n' := by
      rintro rfl
      exact absurd solid (by decide)
    obtain ⟨later, rfl, _⟩ := exists_kept_of_source_eq_cons notNewline opened
    rfl
  have sameLast :
      (target before ++ target matched).getLast? = some edge := by
    rw [← target_append, getLast?_target, source_append, closed, ← List.append_assoc,
      List.getLast?_concat]
  have sourceLast :
      (source before ++ source matched).getLast? = some edge := by
    rw [closed, ← List.append_assoc, List.getLast?_concat]
  rw [sameHead, getLast?_target, sameLast, sourceLast,
    holds_head?_target pattern.last after edgeSolid]

/-- The position in the second text that is aligned with a position in the first. -/
def move (respacing : Respacing) (position : Nat) : Nat :=
  (target (respacing.take position)).length

private theorem move_lt_move
    {respacing : Respacing} {first second : Nat}
    (less : first < second) (inside : second ≤ respacing.length) :
    respacing.move first < respacing.move second := by
  have division :
      respacing.take second =
        respacing.take first ++ (respacing.drop first).take (second - first) := by
    rw [← List.take_add, Nat.add_sub_cancel' (Nat.le_of_lt less)]
  have positive : 0 < (target ((respacing.drop first).take (second - first))).length := by
    rw [List.length_pos_iff, ne_eq, target_eq_nil_iff]
    intro empty
    have counted := congrArg List.length empty
    rw [List.length_take, List.length_drop, List.length_nil] at counted
    omega
  rw [move, move, division, target_append, List.length_append]
  omega

private theorem move_le_move_iff
    {respacing : Respacing} {first second : Nat}
    (firstInside : first ≤ respacing.length) (secondInside : second ≤ respacing.length) :
    respacing.move first ≤ respacing.move second ↔ first ≤ second := by
  constructor
  · intro ordered
    apply Nat.le_of_not_lt
    intro less
    exact absurd (move_lt_move less firstInside) (Nat.not_lt.mpr ordered)
  · intro ordered
    rcases Nat.eq_or_lt_of_le ordered with rfl | less
    · exact Nat.le_refl _
    · exact Nat.le_of_lt (move_lt_move less secondInside)

private theorem move_length_append (first second : Respacing) :
    Respacing.move (first ++ second) first.length = (target first).length := by
  rw [move, List.take_left]

private theorem hasSpan_target
    {pattern : Pattern} (framed : pattern.IsFramed)
    (respaceable : Respaceable pattern.items)
    {respacing : Respacing} {start stop : Nat}
    (spanned : pattern.HasSpan (source respacing) start stop) :
    pattern.HasSpan (target respacing) (respacing.move start) (respacing.move stop) := by
  obtain ⟨_, _, _, division, rfl, rfl, spans⟩ := spanned
  obtain ⟨front, after, rfl, frontDivision, rfl⟩ := exists_of_source_eq_append division
  obtain ⟨before, matched, rfl, rfl, rfl⟩ := exists_of_source_eq_append frontDivision
  refine
    ⟨target before, target matched, target after, by simp, ?_, ?_,
      (spans_target_iff framed respaceable before matched after).mpr spans⟩
  · rw [length_source, List.append_assoc, move_length_append]
  · rw [← source_append, length_source, move_length_append, target_append]

private theorem exists_hasSpan_source
    {pattern : Pattern} (framed : pattern.IsFramed)
    (respaceable : Respaceable pattern.items)
    {respacing : Respacing} {start stop : Nat}
    (spanned : pattern.HasSpan (target respacing) start stop) :
    ∃ first last,
      first ≤ (source respacing).length ∧ start = respacing.move first ∧
        stop = respacing.move last ∧ pattern.HasSpan (source respacing) first last := by
  obtain ⟨before, matched, after, division, rfl, rfl, spans⟩ := spanned
  obtain ⟨head, rest, opened, solid⟩ := framed.opening spans.1
  rw [List.append_assoc] at division
  obtain ⟨front, back, rfl, rfl, backDivision⟩ :
      ∃ front back,
        respacing = front ++ back ∧ target front = before ∧ target back = matched ++ after := by
    rw [opened, List.cons_append] at division ⊢
    exact exists_of_target_eq_append_cons solid division
  obtain ⟨middle, later, rfl, rfl, rfl, _⟩ :=
    respaceable.exists_of_matches_target backDivision spans.1
  refine ⟨front.length, (front ++ middle).length, ?_, ?_, ?_, ?_⟩
  · simp
  · rw [move_length_append]
  · rw [← List.append_assoc, move_length_append, target_append]
  · exact
      ⟨source front, source middle, source later, by simp, length_source front,
        by rw [← source_append, length_source],
        (spans_target_iff framed respaceable front middle later).mp spans⟩

/-- Two occurrences of a pattern that divide the two texts at aligned positions. -/
def Aligned
    (respacing : Respacing) (pattern : Pattern) (first second : Occurrence) : Prop :=
  ∃ before matched after : Respacing,
    respacing = before ++ matched ++ after ∧ Matches pattern.items (source matched) ∧
      first = Occurrence.between (source before) (source matched) (source after) ∧
        second = Occurrence.between (target before) (target matched) (target after)

/-- The occurrences in the two texts are aligned one by one. -/
theorem forall₂_aligned_occurrences
    {pattern : Pattern} (impartial : pattern.IsImpartial) (framed : pattern.IsFramed)
    (respaceable : Respaceable pattern.items) (respacing : Respacing) :
    List.Forall₂ (respacing.Aligned pattern)
      (pattern.occurrences (source respacing)) (pattern.occurrences (target respacing)) := by
  obtain ⟨spans, scan⟩ : ∃ spans, pattern.LeftmostShortest (source respacing) 0 spans :=
    ⟨_, impartial.leftmostShortest_occurrences (source respacing)⟩
  have carried :
      pattern.LeftmostShortest (target respacing) 0
        (spans.map fun span => (respacing.move span.1, respacing.move span.2)) := by
    refine scan.carry ?_ (hasSpan_target framed respaceable)
      (exists_hasSpan_source framed respaceable) (Nat.zero_le _)
    intro first second firstInside secondInside
    rw [length_source] at firstInside secondInside
    exact move_le_move_iff firstInside secondInside
  rw [impartial.occurrences_eq_of_scan scan, impartial.occurrences_eq_of_scan carried,
    List.map_map, List.forall₂_map_left_iff, List.forall₂_map_right_iff, List.forall₂_same]
  rintro ⟨start, stop⟩ member
  obtain ⟨_, _, _, division, rfl, rfl, spanned⟩ := scan.hasSpan_of_mem member
  obtain ⟨front, after, rfl, frontDivision, rfl⟩ := exists_of_source_eq_append division
  obtain ⟨before, matched, rfl, rfl, rfl⟩ := exists_of_source_eq_append frontDivision
  refine ⟨before, matched, after, rfl, spanned.1, ?_, ?_⟩
  · rw [← Occurrence.ofSpan_append, source_append, source_append]
  · have movedStart :
        Respacing.move (before ++ matched ++ after) (source before).length =
          (target before).length := by
      rw [length_source, List.append_assoc, move_length_append]
    have movedStop :
        Respacing.move (before ++ matched ++ after) (source before ++ source matched).length =
          (target before ++ target matched).length := by
      rw [← source_append, length_source, move_length_append, target_append]
    rw [← Occurrence.ofSpan_append, ← movedStart, ← movedStop, ← target_append, ← target_append]
    rfl

end Respacing

end SourceCritic
