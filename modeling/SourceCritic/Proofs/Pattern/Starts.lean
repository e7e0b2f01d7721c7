import Mathlib.Data.List.Sort
import SourceCritic.Proofs.Pattern.Scan

/-!
# Where occurrences start

The occurrences of a pattern start one behind the other.  If the spans of the pattern do not
overlap, none of them is lost to another one, and so the places where occurrences start are simply
all places where the pattern fits.
-/

namespace SourceCritic

theorem rel_or_rel_of_pairwise
    {α : Type} {relation : α → α → Prop} {items : List α} {first second : α}
    (ordered : items.Pairwise relation)
    (firstMember : first ∈ items) (secondMember : second ∈ items)
    (different : first ≠ second) :
    relation first second ∨ relation second first := by
  refine
    List.Pairwise.forall_of_forall_of_flip
      (R := fun first second => first ≠ second → relation first second ∨ relation second first)
      ?_ ?_ ?_ firstMember secondMember different
  · intro item _ differs
    exact absurd rfl differs
  · exact ordered.imp fun related _ => Or.inl related
  · exact ordered.imp fun related _ => Or.inr related

namespace Pattern

theorem HasSpan.start_le_stop
    {pattern : Pattern} {text : List Char} {start stop : Nat}
    (spanned : pattern.HasSpan text start stop) :
    start ≤ stop := by
  obtain ⟨before, matched, after, _, rfl, rfl, _⟩ := spanned
  rw [List.length_append]
  exact Nat.le_add_right _ _

private theorem LeftmostShortest.le_start_of_mem
    {pattern : Pattern} {text : List Char} {position : Nat} {spans : List (Nat × Nat)}
    (scan : LeftmostShortest pattern text position spans)
    {span : Nat × Nat} (member : span ∈ spans) :
    position ≤ span.1 := by
  induction scan with
  | done _ => cases member
  | next reached spanned _ _ _ inductionHypothesis =>
      rcases List.mem_cons.mp member with rfl | later
      · exact reached
      · have behind := inductionHypothesis later
        have ordered := spanned.start_le_stop
        omega

theorem LeftmostShortest.pairwise_stop_le
    {pattern : Pattern} {text : List Char} {position : Nat} {spans : List (Nat × Nat)}
    (scan : LeftmostShortest pattern text position spans) :
    spans.Pairwise fun first second => first.2 ≤ second.1 := by
  induction scan with
  | done _ => exact List.Pairwise.nil
  | next _ _ _ _ later inductionHypothesis =>
      refine List.pairwise_cons.mpr ⟨?_, inductionHypothesis⟩
      intro span member
      exact later.le_start_of_mem member

/-- No two spans of a scan begin at the same place. -/
theorem LeftmostShortest.pairwise_start
    {pattern : Pattern} (impartial : pattern.IsImpartial)
    {text : List Char} {position : Nat} {spans : List (Nat × Nat)}
    (scan : LeftmostShortest pattern text position spans) :
    spans.Pairwise fun first second => first.1 < second.1 := by
  induction scan with
  | done _ => exact List.Pairwise.nil
  | next _ spanned _ _ later inductionHypothesis =>
      refine List.pairwise_cons.mpr ⟨?_, inductionHypothesis⟩
      intro span member
      exact Nat.lt_of_lt_of_le (impartial.start_lt_stop spanned) (later.le_start_of_mem member)

namespace IsImpartial

variable {pattern : Pattern} (impartial : pattern.IsImpartial) (text : List Char)

include impartial

theorem pairwise_offset :
    (pattern.occurrences text).Pairwise fun first second =>
      first.place.offset < second.place.offset := by
  have ordered := (impartial.leftmostShortest_occurrences text).pairwise_start impartial
  rw [List.pairwise_map] at ordered
  exact ordered

theorem hasSpan_of_mem_occurrences
    {occurrence : Occurrence} (member : occurrence ∈ pattern.occurrences text) :
    pattern.HasSpan text occurrence.span.1 occurrence.span.2 :=
  (impartial.leftmostShortest_occurrences text).hasSpan_of_mem (List.mem_map_of_mem member)

theorem pairwise_stop :
    (pattern.occurrences text).Pairwise fun first second => first.span.2 < second.span.2 := by
  have ordered := (impartial.leftmostShortest_occurrences text).pairwise_stop_le
  rw [List.pairwise_map] at ordered
  refine ordered.imp_of_mem ?_
  intro first second _ secondMember apart
  have spanned := impartial.hasSpan_of_mem_occurrences text secondMember
  exact Nat.lt_of_le_of_lt apart (impartial.start_lt_stop spanned)

/-- Two occurrences that share a character are the same. -/
theorem eq_of_shared
    {first second : Occurrence}
    (firstMember : first ∈ pattern.occurrences text)
    (secondMember : second ∈ pattern.occurrences text)
    (firstShares : second.span.1 < first.span.2)
    (secondShares : first.span.1 < second.span.2) :
    first = second := by
  have ordered := (impartial.leftmostShortest_occurrences text).pairwise_stop_le
  rw [List.pairwise_map] at ordered
  by_contra different
  rcases rel_or_rel_of_pairwise ordered firstMember secondMember different with before | behind
  · exact absurd firstShares (Nat.not_lt.mpr before)
  · exact absurd secondShares (Nat.not_lt.mpr behind)

/-- An occurrence divides the text into what is before it, what it matches and what is behind. -/
theorem exists_between_of_mem
    {occurrence : Occurrence} (member : occurrence ∈ pattern.occurrences text) :
    ∃ before matched after,
      text = before ++ matched ++ after ∧ occurrence = .between before matched after ∧
        pattern.Spans before matched after := by
  obtain ⟨_, _, spanned, rfl⟩ := impartial.exists_span_of_mem_occurrences member
  obtain ⟨before, matched, after, rfl, rfl, rfl, spans⟩ := spanned
  exact ⟨before, matched, after, rfl, Occurrence.ofSpan_append before matched after, spans⟩

/-- Where spans keep apart, a scan misses none of them. -/
theorem exists_offset_iff (apart : pattern.IsApart) (start : Nat) :
    (∃ occurrence ∈ pattern.occurrences text, occurrence.place.offset = start) ↔
      ∃ stop, pattern.HasSpan text start stop := by
  constructor
  · rintro ⟨occurrence, member, rfl⟩
    obtain ⟨before, matched, after, rfl, rfl, spans⟩ :=
      impartial.exists_between_of_mem text member
    exact ⟨_, before, matched, after, rfl, rfl, rfl, spans⟩
  · rintro ⟨stop, spanned⟩
    obtain ⟨sooner, member⟩ := impartial.ofSpan_mem_occurrences apart spanned
    refine ⟨_, member, ?_⟩
    exact List.length_take_of_le spanned.start_le_length

/-- Occurrences start at all the places where the pattern fits. -/
theorem offsets_eq_filter
    (apart : pattern.IsApart) {fits : Nat → Bool}
    (exact : ∀ start, fits start = true ↔ ∃ stop, pattern.HasSpan text start stop) :
    (pattern.occurrences text).map (·.place.offset) =
      (List.range (text.length + 1)).filter fits := by
  refine List.Pairwise.eq_of_mem_iff (r := (· < ·)) ?_ ?_ ?_
  · rw [List.pairwise_map]
    exact impartial.pairwise_offset text
  · exact List.pairwise_lt_range.filter _
  · intro start
    rw [List.mem_map, impartial.exists_offset_iff text apart, List.mem_filter, List.mem_range,
      exact]
    constructor
    · rintro ⟨stop, spanned⟩
      exact ⟨Nat.lt_succ_of_le spanned.start_le_length, stop, spanned⟩
    · exact And.right

end IsImpartial

end Pattern

end SourceCritic
