import Mathlib
import SourceCritic.Proofs.Pattern.Starts

/-!
# Packings

A packing of a text is a set of spans of a pattern no two of which share a position.  A scan is
one such packing, and it need not be a largest one: a span that is taken hides all others that
begin within it.  If the pattern is orderly, however, every span has to its account a span of the
scan that stops within it.  Spans that share no position have different ones to their account, so
no packing is larger than the scan.

Without anchors a span stays one when more text is put in front of it or behind it, and so the
scans of two texts are together a packing of the two texts in a row.
-/

namespace SourceCritic.Pattern

/-- Spans of a pattern no two of which share a position. -/
structure IsPacking
    (pattern : Pattern) (text : List Char) (family : Finset (Nat × Nat)) : Prop where
  hasSpan : ∀ span ∈ family, pattern.HasSpan text span.1 span.2
  disjoint : (family : Set (Nat × Nat)).PairwiseDisjoint fun span => Finset.Ico span.1 span.2

/-- The numbers of spans in the packings of a text. -/
def packingSizes (pattern : Pattern) (text : List Char) : Set Nat :=
  {size | ∃ family, IsPacking pattern text family ∧ family.card = size}

/-! ## The scan as a packing -/

section Scan

variable {pattern : Pattern} (impartial : pattern.IsImpartial) (text : List Char)

include impartial

private theorem IsImpartial.isPacking_occurrences :
    IsPacking pattern text ((pattern.occurrences text).map Occurrence.span).toFinset := by
  have scan := impartial.leftmostShortest_occurrences text
  constructor
  · intro span member
    exact scan.hasSpan_of_mem (List.mem_toFinset.mp member)
  · intro first firstMember second secondMember different
    have firstInScan := List.mem_toFinset.mp (Finset.mem_coe.mp firstMember)
    have secondInScan := List.mem_toFinset.mp (Finset.mem_coe.mp secondMember)
    have ordered :=
      rel_or_rel_of_pairwise scan.pairwise_stop_le firstInScan secondInScan different
    apply Finset.disjoint_left.mpr
    intro position inFirst inSecond
    rw [Finset.mem_Ico] at inFirst inSecond
    omega

private theorem IsImpartial.card_occurrences :
    ((pattern.occurrences text).map Occurrence.span).toFinset.card =
      (pattern.occurrences text).length := by
  have increasing := (impartial.leftmostShortest_occurrences text).pairwise_start impartial
  have distinct : ((pattern.occurrences text).map Occurrence.span).Nodup := by
    apply increasing.imp
    intro first second less same
    rw [same] at less
    exact Nat.lt_irrefl _ less
  rw [List.toFinset_card_of_nodup distinct, List.length_map]

/-! ## No packing is larger -/

variable {text} {family : Finset (Nat × Nat)}

/-- A scan takes at least as many spans as any packing has. -/
theorem IsPacking.card_le
    (packing : IsPacking pattern text family) (orderly : pattern.IsOrderly) :
    family.card ≤ (pattern.occurrences text).length := by
  have scan := impartial.leftmostShortest_occurrences text
  have accounts :
      ∀ span ∈ family,
        ∃ taken ∈ (pattern.occurrences text).map Occurrence.span,
          span.1 < taken.2 ∧ taken.2 ≤ span.2 := by
    intro span member
    obtain ⟨taken, inScan, _, reached, bounded⟩ :=
      scan.exists_mem_across orderly (packing.hasSpan span member) (Nat.zero_le _)
    exact ⟨taken, inScan, reached, bounded⟩
  choose! account inScan reached bounded using accounts
  rw [← impartial.card_occurrences text]
  apply Finset.card_le_card_of_injOn account
  · intro span member
    exact List.mem_toFinset.mpr (inScan span member)
  · intro first firstMember second secondMember same
    -- The last position of the span they share would belong to both of them.
    have inFirst : (account first).2 - 1 ∈ Finset.Ico first.1 first.2 := by
      have behind := reached first firstMember
      have within := bounded first firstMember
      rw [Finset.mem_Ico]
      omega
    have inSecond : (account first).2 - 1 ∈ Finset.Ico second.1 second.2 := by
      have behind := reached second secondMember
      have within := bounded second secondMember
      rw [← same] at behind within
      rw [Finset.mem_Ico]
      omega
    exact packing.disjoint.elim_finset firstMember secondMember _ inFirst inSecond

/-- A scan takes as many spans as there can be. -/
theorem IsImpartial.isGreatest_packingSizes (orderly : pattern.IsOrderly) (text : List Char) :
    IsGreatest (packingSizes pattern text) (pattern.occurrences text).length := by
  constructor
  · exact ⟨_, impartial.isPacking_occurrences text, impartial.card_occurrences text⟩
  · intro size member
    obtain ⟨family, packing, rfl⟩ := member
    exact packing.card_le impartial orderly

end Scan

/-! ## Texts in a row -/

/-- A pattern that may match anywhere. -/
structure IsUnanchored (pattern : Pattern) : Prop where
  first : pattern.first = .anywhere
  last : pattern.last = .anywhere

namespace IsUnanchored

variable {pattern : Pattern} (unanchored : pattern.IsUnanchored)

include unanchored

private theorem spans_iff (before matched after : List Char) :
    pattern.Spans before matched after ↔ Matches pattern.items matched := by
  rw [Spans, unanchored.first, unanchored.last]
  simp [Anchor.holds]

private theorem hasSpan_append
    {first : List Char} (second : List Char) {start stop : Nat}
    (spanned : pattern.HasSpan first start stop) :
    pattern.HasSpan (first ++ second) start stop := by
  obtain ⟨before, matched, after, rfl, atStart, atStop, spans⟩ := spanned
  refine ⟨before, matched, after ++ second, by simp, atStart, atStop, ?_⟩
  rw [unanchored.spans_iff] at spans ⊢
  exact spans

private theorem hasSpan_behind
    (first : List Char) {second : List Char} {start stop : Nat}
    (spanned : pattern.HasSpan second start stop) :
    pattern.HasSpan (first ++ second) (first.length + start) (first.length + stop) := by
  obtain ⟨before, matched, after, rfl, rfl, rfl, spans⟩ := spanned
  refine ⟨first ++ before, matched, after, by simp, by simp, by simp, ?_⟩
  rw [unanchored.spans_iff] at spans ⊢
  exact spans

private theorem family_behind
    (first : List Char) {second : List Char} {start position : Nat} {spans : List (Nat × Nat)}
    (family : Family pattern second start spans) (reached : position ≤ first.length + start) :
    Family pattern (first ++ second) position
      (spans.map fun span => (first.length + span.1, first.length + span.2)) := by
  induction family generalizing position with
  | nil => exact Family.nil
  | cons behind spanned _ inductionHypothesis =>
      have moved := unanchored.hasSpan_behind first spanned
      exact Family.cons (by omega) moved (inductionHypothesis (Nat.le_refl _))

private theorem family_append
    {first second : List Char} {position : Nat} {spans later : List (Nat × Nat)}
    (inText : position ≤ first.length)
    (family : Family pattern first position spans)
    (laterFamily : Family pattern second 0 later) :
    Family pattern (first ++ second) position
      (spans ++ later.map fun span => (first.length + span.1, first.length + span.2)) := by
  induction family with
  | nil => exact unanchored.family_behind first laterFamily inText
  | cons behind spanned _ inductionHypothesis =>
      have stays := unanchored.hasSpan_append second spanned
      exact Family.cons behind stays (inductionHypothesis spanned.stop_le_length)

/-- Two texts together have no more matches than the joined text, if the pattern has no anchors. -/
theorem length_occurrences_append
    (impartial : pattern.IsImpartial) (orderly : pattern.IsOrderly) (first second : List Char) :
    (pattern.occurrences first).length + (pattern.occurrences second).length ≤
      (pattern.occurrences (first ++ second)).length := by
  have firstFamily := (impartial.leftmostShortest_occurrences first).family
  have secondFamily := (impartial.leftmostShortest_occurrences second).family
  have together := unanchored.family_append (Nat.zero_le _) firstFamily secondFamily
  have scan := impartial.leftmostShortest_occurrences (first ++ second)
  have bound := scan.length_le orderly together (Nat.zero_le _)
  simpa only [List.length_append, List.length_map] using bound

end IsUnanchored

end SourceCritic.Pattern
