import SourceCritic.Proofs.Pattern.Preferred

/-!
# Scans

A scan of a text for a pattern, described without preferences: from the current position on, take
the span that starts first, of those the one that stops first, and go on where it stops.  There is
exactly one such scan of a text.  `Pattern.occurrences` follows it whenever the pattern is
impartial, that is if its matches are not empty and its preferred layouts are the shortest ones.

The last two sections compare scans: a scan can be carried over to another text along a map of
positions, and it takes as many spans as any family of spans that do not overlap if no span
can be shortened by starting later.
-/

namespace SourceCritic

namespace Text.Place

/-- The place behind a text. -/
def behind (before : List Char) : Place where
  offset := before.length
  line := lineCount before

private theorem next_behind (before : List Char) (passed : Char) :
    (behind before).next passed = behind (before ++ [passed]) := by
  by_cases isNewline : passed = '\n'
  · subst isNewline
    simp [behind, next, lineCount]
    omega
  · simp [behind, next, lineCount, isNewline]

end Text.Place

namespace Pattern

/-! ## Spans -/

/-- The pattern fits the part of a text that starts and stops behind the given numbers of
characters. -/
def HasSpan (pattern : Pattern) (text : List Char) (start stop : Nat) : Prop :=
  ∃ before matched after,
    text = before ++ matched ++ after ∧ before.length = start ∧
      (before ++ matched).length = stop ∧ pattern.Spans before matched after

private theorem spans_iff_fits
    (pattern : Pattern) (before matched after : List Char) :
    pattern.Spans before matched after ↔
      pattern.first.holds before.getLast? (matched ++ after).head? = true ∧
        Fits pattern.last pattern.items before.getLast? matched after := by
  rw [Spans, Fits, List.getLast?_append]
  constructor
  · rintro ⟨matching, opened, closed⟩
    exact ⟨opened, matching, closed⟩
  · rintro ⟨opened, matching, closed⟩
    exact ⟨matching, opened, closed⟩

/-- A span that starts behind a text has its matched part at the beginning of what follows. -/
theorem hasSpan_append_iff
    (pattern : Pattern) (before text : List Char) (stop : Nat) :
    pattern.HasSpan (before ++ text) before.length stop ↔
      ∃ matched after,
        text = matched ++ after ∧ stop = before.length + matched.length ∧
          pattern.Spans before matched after := by
  constructor
  · rintro ⟨front, matched, after, division, sameLength, reached, spans⟩
    rw [List.append_assoc] at division
    obtain ⟨rfl, rfl⟩ := List.append_inj division sameLength.symm
    exact ⟨matched, after, rfl, by rw [← reached, List.length_append], spans⟩
  · rintro ⟨matched, after, rfl, rfl, spans⟩
    exact ⟨before, matched, after, by simp, rfl, by simp, spans⟩

theorem HasSpan.stop_le_length
    {pattern : Pattern} {text : List Char} {start stop : Nat}
    (spanned : pattern.HasSpan text start stop) :
    stop ≤ text.length := by
  obtain ⟨before, matched, after, rfl, _, rfl, _⟩ := spanned
  simp only [List.length_append]
  omega

theorem HasSpan.start_le_length
    {pattern : Pattern} {text : List Char} {start stop : Nat}
    (spanned : pattern.HasSpan text start stop) :
    start ≤ text.length := by
  obtain ⟨before, matched, after, rfl, rfl, _, _⟩ := spanned
  simp only [List.length_append]
  omega

/-- A pattern for which it does not matter which layout is preferred. -/
structure IsImpartial (pattern : Pattern) : Prop where
  nonempty : ¬ Matches pattern.items []
  shortest : PrefersShortest pattern.last pattern.items

theorem IsImpartial.start_lt_stop
    {pattern : Pattern} (impartial : pattern.IsImpartial)
    {text : List Char} {start stop : Nat}
    (spanned : pattern.HasSpan text start stop) :
    start < stop := by
  obtain ⟨before, matched, after, _, rfl, rfl, matching, _⟩ := spanned
  cases matched with
  | nil => exact absurd matching impartial.nonempty
  | cons head rest => simp

private theorem hasSpan_of_lengthAt
    {pattern : Pattern} {before text : List Char} {length : Nat}
    (found : pattern.lengthAt before.getLast? text = some length) :
    pattern.HasSpan (before ++ text) before.length (before.length + length) := by
  rw [lengthAt] at found
  split at found
  · obtain ⟨matched, after, rfl, rfl, fits⟩ :=
      fitsWith_of_preferredLength pattern.items before.getLast? text found
    rw [hasSpan_append_iff]
    exact ⟨matched, after, rfl, rfl, (spans_iff_fits pattern before matched after).mpr ⟨‹_›, fits⟩⟩
  · cases found

private theorem exists_lengthAt_of_hasSpan
    {pattern : Pattern} (impartial : pattern.IsImpartial)
    {before text : List Char} {stop : Nat}
    (spanned : pattern.HasSpan (before ++ text) before.length stop) :
    ∃ length,
      pattern.lengthAt before.getLast? text = some length ∧
        before.length + length ≤ stop := by
  obtain ⟨matched, after, rfl, rfl, spans⟩ :=
    (hasSpan_append_iff pattern before text stop).mp spanned
  obtain ⟨opened, fits⟩ := (spans_iff_fits pattern before matched after).mp spans
  obtain ⟨length, preferred⟩ := Option.isSome_iff_exists.mp fits.isSome_preferredLength
  refine ⟨length, ?_, ?_⟩
  · rw [lengthAt, if_pos opened]
    exact preferred
  · have bound := impartial.shortest _ _ _ _ fits preferred
    omega

/-! ## The scan without preferences -/

/-- The spans that a scan from a position on takes: always the one that starts first, and of those
the one that stops first, until there is none left. -/
inductive LeftmostShortest (pattern : Pattern) (text : List Char) :
    (position : Nat) → (spans : List (Nat × Nat)) → Prop where
  | done {position : Nat} :
      (∀ start stop, position ≤ start → ¬ pattern.HasSpan text start stop) →
      LeftmostShortest pattern text position []
  | next {position start stop : Nat} {later : List (Nat × Nat)} :
      position ≤ start →
      pattern.HasSpan text start stop →
      (∀ otherStart otherStop, position ≤ otherStart →
        pattern.HasSpan text otherStart otherStop → start ≤ otherStart) →
      (∀ otherStop, pattern.HasSpan text start otherStop → stop ≤ otherStop) →
      LeftmostShortest pattern text stop later →
      LeftmostShortest pattern text position ((start, stop) :: later)

namespace LeftmostShortest

/-- A text has only one scan. -/
theorem unique
    {pattern : Pattern} {text : List Char} {position : Nat}
    {first second : List (Nat × Nat)}
    (firstScan : LeftmostShortest pattern text position first)
    (secondScan : LeftmostShortest pattern text position second) :
    first = second := by
  induction firstScan generalizing second with
  | done none =>
      cases secondScan with
      | done _ => rfl
      | next reached spanned _ _ _ => exact absurd spanned (none _ _ reached)
  | next reached spanned leftmost shortest _ inductionHypothesis =>
      cases secondScan with
      | done none => exact absurd spanned (none _ _ reached)
      | next otherReached otherSpanned otherLeftmost otherShortest otherLater =>
          have sameStart :=
            Nat.le_antisymm
              (leftmost _ _ otherReached otherSpanned) (otherLeftmost _ _ reached spanned)
          subst sameStart
          have sameStop :=
            Nat.le_antisymm (shortest _ otherSpanned) (otherShortest _ spanned)
          subst sameStop
          rw [inductionHypothesis otherLater]

theorem hasSpan_of_mem
    {pattern : Pattern} {text : List Char} {position : Nat} {spans : List (Nat × Nat)}
    (scan : LeftmostShortest pattern text position spans)
    {span : Nat × Nat} (member : span ∈ spans) :
    pattern.HasSpan text span.1 span.2 := by
  induction scan with
  | done _ => cases member
  | next _ spanned _ _ _ inductionHypothesis =>
      rcases List.mem_cons.mp member with rfl | later
      · exact spanned
      · exact inductionHypothesis later

private theorem of_succ
    {pattern : Pattern} {text : List Char} {position : Nat} {spans : List (Nat × Nat)}
    (none : ∀ stop, ¬ pattern.HasSpan text position stop)
    (scan : LeftmostShortest pattern text (position + 1) spans) :
    LeftmostShortest pattern text position spans := by
  have later :
      ∀ {start stop : Nat}, position ≤ start → pattern.HasSpan text start stop →
        position + 1 ≤ start := by
    intro start stop reached spanned
    rcases Nat.eq_or_lt_of_le reached with same | less
    · subst same
      exact absurd spanned (none stop)
    · exact less
  cases scan with
  | done nothing =>
      exact done fun start stop reached spanned =>
        nothing start stop (later reached spanned) spanned
  | next reached spanned leftmost shortest rest =>
      exact
        next (Nat.le_of_succ_le reached) spanned
          (fun start stop otherReached otherSpanned =>
            leftmost start stop (later otherReached otherSpanned) otherSpanned)
          shortest rest

end LeftmostShortest

end Pattern

/-! ## Occurrences -/

namespace Occurrence

/-- Where an occurrence starts and where it stops. -/
def span (occurrence : Occurrence) : Nat × Nat :=
  (occurrence.place.offset, occurrence.place.offset + occurrence.length)

/-- The occurrence in a text that starts and stops at the ends of a span. -/
def ofSpan (text : List Char) (span : Nat × Nat) : Occurrence where
  place := Text.Place.behind (text.take span.1)
  tail := text.drop span.1
  length := span.2 - span.1

/-- The occurrence that divides a text into three parts. -/
def between (before matched after : List Char) : Occurrence where
  place := Text.Place.behind before
  tail := matched ++ after
  length := matched.length

theorem ofSpan_append (before matched after : List Char) :
    ofSpan (before ++ matched ++ after) (before.length, (before ++ matched).length) =
      between before matched after := by
  simp [ofSpan, between, List.append_assoc]

@[simp]
theorem matched_between (before matched after : List Char) :
    (between before matched after).matched = matched := by
  simp [between, Occurrence.matched]

theorem place_tail_ofSpan (text : List Char) (span : Nat × Nat) :
    (ofSpan text span).place =
        Text.Place.behind (text.take (ofSpan text span).place.offset) ∧
      (ofSpan text span).tail = text.drop (ofSpan text span).place.offset := by
  have offset : (ofSpan text span).place.offset = min span.1 text.length :=
    List.length_take
  rw [offset]
  rcases Nat.le_total span.1 text.length with inside | outside
  · rw [Nat.min_eq_left inside]
    exact ⟨rfl, rfl⟩
  · rw [Nat.min_eq_right outside]
    simp only [ofSpan, List.take_of_length_le outside, List.drop_of_length_le outside,
      List.take_length, List.drop_length, and_self]

end Occurrence

namespace Pattern

/-- From any place on, the occurrences are those of the scan, and each of them carries the place
and the rest of the text that belong to its span. -/
private theorem leftmostShortest_occurrencesFrom
    {pattern : Pattern} (impartial : pattern.IsImpartial)
    (before text : List Char) (skipped : Nat) :
    let found :=
      occurrencesFrom (Text.Place.behind before) skipped text
        ((Sweep.through pattern text).visit pattern before.getLast?).lengths
    LeftmostShortest pattern (before ++ text) (before.length + skipped)
        (found.map Occurrence.span) ∧
      found = (found.map Occurrence.span).map (Occurrence.ofSpan (before ++ text)) := by
  induction text generalizing before skipped with
  | nil =>
      rw [Sweep.lengths_visit_through]
      simp only [occurrencesFrom, List.map_nil, and_true]
      refine LeftmostShortest.done fun start stop reached spanned => ?_
      have bound := spanned.stop_le_length
      have positive := impartial.start_lt_stop spanned
      rw [List.append_nil] at bound
      omega
  | cons head rest inductionHypothesis =>
      have step := inductionHypothesis (before ++ [head])
      rw [Sweep.lengths_visit_through, Sweep.through_cons]
      simp only [List.append_assoc, List.cons_append, List.nil_append, List.length_append,
        List.length_cons, List.length_nil, List.getLast?_concat] at step
      cases skipped with
      | succ skipped =>
          simp only [occurrencesFrom, Text.Place.next_behind]
          have scanned := step skipped
          rw [show before.length + (0 + 1) + skipped = before.length + (skipped + 1) by omega]
            at scanned
          exact scanned
      | zero =>
          cases known : pattern.lengthAt before.getLast? (head :: rest) with
          | none =>
              simp only [occurrencesFrom, Text.Place.next_behind]
              have scanned := step 0
              refine ⟨LeftmostShortest.of_succ ?_ scanned.1, scanned.2⟩
              intro stop spanned
              obtain ⟨length, found, _⟩ := exists_lengthAt_of_hasSpan impartial spanned
              rw [known] at found
              cases found
          | some length =>
              simp only [occurrencesFrom, Text.Place.next_behind]
              have spanned := hasSpan_of_lengthAt known
              have positive := impartial.start_lt_stop spanned
              have scanned := step (length - 1)
              rw [show before.length + (0 + 1) + (length - 1) = before.length + length by omega]
                at scanned
              constructor
              · refine
                  LeftmostShortest.next (Nat.le_refl _) spanned
                    (fun _ _ reached _ => reached) ?_ scanned.1
                intro otherStop otherSpanned
                obtain ⟨other, found, bound⟩ := exists_lengthAt_of_hasSpan impartial otherSpanned
                rw [known] at found
                cases found
                exact bound
              · rw [List.map_cons, List.map_cons, ← scanned.2]
                simp [Occurrence.ofSpan, Occurrence.span, Text.Place.behind]

namespace IsImpartial

/-- The occurrences of an impartial pattern are what a scan for the shortest spans takes. -/
theorem leftmostShortest_occurrences
    {pattern : Pattern} (impartial : pattern.IsImpartial) (text : List Char) :
    LeftmostShortest pattern text 0 ((pattern.occurrences text).map Occurrence.span) :=
  (leftmostShortest_occurrencesFrom impartial [] text 0).1

theorem occurrences_eq_map_ofSpan
    {pattern : Pattern} (impartial : pattern.IsImpartial) (text : List Char) :
    pattern.occurrences text =
      ((pattern.occurrences text).map Occurrence.span).map (Occurrence.ofSpan text) :=
  (leftmostShortest_occurrencesFrom impartial [] text 0).2

/-- Any scan for the shortest spans gives the occurrences, so they can be told without the
preferences. -/
theorem occurrences_eq_of_scan
    {pattern : Pattern} (impartial : pattern.IsImpartial)
    {text : List Char} {spans : List (Nat × Nat)}
    (scan : LeftmostShortest pattern text 0 spans) :
    pattern.occurrences text = spans.map (Occurrence.ofSpan text) := by
  rw [impartial.occurrences_eq_map_ofSpan text,
    (impartial.leftmostShortest_occurrences text).unique scan]

theorem exists_span_of_mem_occurrences
    {pattern : Pattern} (impartial : pattern.IsImpartial)
    {text : List Char} {occurrence : Occurrence}
    (member : occurrence ∈ pattern.occurrences text) :
    ∃ start stop,
      pattern.HasSpan text start stop ∧ occurrence = Occurrence.ofSpan text (start, stop) := by
  rw [impartial.occurrences_eq_map_ofSpan text] at member
  obtain ⟨span, found, rfl⟩ := List.mem_map.mp member
  exact
    ⟨span.1, span.2, (impartial.leftmostShortest_occurrences text).hasSpan_of_mem found, rfl⟩

/-- A pattern is found in a text if and only if it has a span there. -/
theorem exists_mem_occurrences_iff
    {pattern : Pattern} (impartial : pattern.IsImpartial) (text : List Char) :
    (∃ occurrence, occurrence ∈ pattern.occurrences text) ↔
      ∃ start stop, pattern.HasSpan text start stop := by
  constructor
  · rintro ⟨occurrence, member⟩
    obtain ⟨start, stop, spanned, _⟩ := impartial.exists_span_of_mem_occurrences member
    exact ⟨start, stop, spanned⟩
  · rintro ⟨start, stop, spanned⟩
    apply List.exists_mem_of_ne_nil
    intro empty
    have scan := impartial.leftmostShortest_occurrences text
    rw [empty, List.map_nil] at scan
    cases scan with
    | done none => exact none start stop (Nat.zero_le _) spanned

end IsImpartial

/-! ## Scans of two texts -/

/-- A scan of one text becomes a scan of another one if a map of positions keeps their order and
takes the spans of the first text to those of the second. -/
theorem LeftmostShortest.carry
    {pattern : Pattern} {text other : List Char} {move : Nat → Nat}
    (ordered :
      ∀ {first second : Nat}, first ≤ text.length → second ≤ text.length →
        (move first ≤ move second ↔ first ≤ second))
    (forward :
      ∀ {start stop : Nat}, pattern.HasSpan text start stop →
        pattern.HasSpan other (move start) (move stop))
    (backward :
      ∀ {start stop : Nat}, pattern.HasSpan other start stop →
        ∃ first last,
          first ≤ text.length ∧ start = move first ∧ stop = move last ∧
            pattern.HasSpan text first last)
    {position : Nat} {spans : List (Nat × Nat)}
    (inText : position ≤ text.length)
    (scan : LeftmostShortest pattern text position spans) :
    LeftmostShortest pattern other (move position)
      (spans.map fun span => (move span.1, move span.2)) := by
  induction scan with
  | done none =>
      refine LeftmostShortest.done fun start stop reached spanned => ?_
      obtain ⟨first, last, bound, rfl, rfl, original⟩ := backward spanned
      exact none first last ((ordered inText bound).mp reached) original
  | @next position start stop later reached spanned leftmost shortest _ inductionHypothesis =>
      have stopBound := spanned.stop_le_length
      have startBound := spanned.start_le_length
      refine
        LeftmostShortest.next ((ordered inText startBound).mpr reached) (forward spanned)
          ?_ ?_ (inductionHypothesis stopBound)
      · intro otherStart otherStop otherReached otherSpanned
        obtain ⟨first, last, bound, rfl, rfl, original⟩ := backward otherSpanned
        have positioned := (ordered inText bound).mp otherReached
        exact (ordered startBound bound).mpr (leftmost first last positioned original)
      · intro otherStop otherSpanned
        obtain ⟨first, last, bound, sameStart, rfl, original⟩ := backward otherSpanned
        have same : start = first :=
          Nat.le_antisymm
            ((ordered startBound bound).mp (Nat.le_of_eq sameStart))
            ((ordered bound startBound).mp (Nat.le_of_eq sameStart.symm))
        subst same
        exact (ordered stopBound original.stop_le_length).mpr (shortest last original)

/-! ## Spans that do not overlap -/

/-- Spans of a pattern from a position on, each one behind the one before. -/
inductive Family (pattern : Pattern) (text : List Char) :
    (position : Nat) → (spans : List (Nat × Nat)) → Prop where
  | nil {position : Nat} : Family pattern text position []
  | cons {position start stop : Nat} {later : List (Nat × Nat)} :
      position ≤ start →
      pattern.HasSpan text start stop →
      Family pattern text stop later →
      Family pattern text position ((start, stop) :: later)

theorem LeftmostShortest.family
    {pattern : Pattern} {text : List Char} {position : Nat} {spans : List (Nat × Nat)}
    (scan : LeftmostShortest pattern text position spans) :
    Family pattern text position spans := by
  induction scan with
  | done _ => exact Family.nil
  | next reached spanned _ _ _ inductionHypothesis =>
      exact Family.cons reached spanned inductionHypothesis

/-- Of two spans, the one that starts first can be made to stop no later than the other. -/
def IsOrderly (pattern : Pattern) : Prop :=
  ∀ (text : List Char) (start stop laterStart laterStop : Nat),
    pattern.HasSpan text start stop →
    pattern.HasSpan text laterStart laterStop →
    start ≤ laterStart →
    ∃ sooner, sooner ≤ laterStop ∧ pattern.HasSpan text start sooner

/-- Two spans of one text, taken apart at the places where they start. -/
theorem HasSpan.exists_front
    {pattern : Pattern} {text : List Char} {start stop laterStart laterStop : Nat}
    (spanned : pattern.HasSpan text start stop)
    (laterSpanned : pattern.HasSpan text laterStart laterStop)
    (ordered : start ≤ laterStart) :
    ∃ before matched after front inner rest,
      text = before ++ matched ++ after ∧ matched ++ after = front ++ (inner ++ rest) ∧
        (start = before.length ∧ stop = (before ++ matched).length) ∧
        (laterStart = (before ++ front).length ∧
          laterStop = (before ++ front ++ inner).length) ∧
        pattern.Spans before matched after ∧ pattern.Spans (before ++ front) inner rest := by
  obtain ⟨before, matched, after, rfl, rfl, rfl, spans⟩ := spanned
  obtain ⟨laterBefore, inner, rest, division, rfl, rfl, laterSpans⟩ := laterSpanned
  rw [List.append_assoc, List.append_assoc] at division
  obtain ⟨front, rfl⟩ : before <+: laterBefore :=
    List.prefix_of_prefix_length_le ⟨matched ++ after, division⟩ ⟨inner ++ rest, rfl⟩ ordered
  rw [List.append_assoc, List.append_cancel_left_eq] at division
  exact
    ⟨before, matched, after, front, inner, rest, rfl, division, ⟨rfl, rfl⟩, ⟨rfl, rfl⟩, spans,
      laterSpans⟩

/-- A pattern is orderly if a match may stop wherever a match inside of it stops. -/
theorem IsOrderly.of_nested
    {pattern : Pattern}
    (nested :
      ∀ {before front inner back after : List Char},
        front ≠ [] →
        pattern.Spans before (front ++ (inner ++ back)) after →
        pattern.Spans (before ++ front) inner (back ++ after) →
        pattern.Spans before (front ++ inner) (back ++ after)) :
    pattern.IsOrderly := by
  intro text start stop laterStart laterStop spanned laterSpanned ordered
  rcases Nat.le_total stop laterStop with sooner | longer
  · exact ⟨stop, sooner, spanned⟩
  rcases Nat.eq_or_lt_of_le ordered with rfl | less
  · exact ⟨laterStop, Nat.le_refl _, laterSpanned⟩
  obtain ⟨before, matched, after, front, inner, rest, rfl, division, ⟨rfl, rfl⟩, ⟨rfl, rfl⟩, spans,
      laterSpans⟩ := spanned.exists_front laterSpanned ordered
  have nonempty : front ≠ [] := by
    rintro rfl
    simp at less
  rw [← List.append_assoc] at division
  obtain ⟨back, rfl⟩ : front ++ inner <+: matched := by
    refine List.prefix_of_prefix_length_le ⟨rest, division.symm⟩ ⟨after, rfl⟩ ?_
    simp only [List.length_append] at longer ⊢
    omega
  rw [List.append_assoc, List.append_cancel_left_eq] at division
  rw [← division] at laterSpans
  rw [List.append_assoc] at spans
  refine
    ⟨_, Nat.le_refl _, before, front ++ inner, back ++ after, ?_, rfl, ?_,
      nested nonempty spans laterSpans⟩
  · simp only [List.append_assoc]
  · simp only [List.append_assoc]

/-- The scan for an orderly pattern takes at least as many spans as any family.  Each span of the
family is exchanged for one of the scan, which stops no later. -/
theorem LeftmostShortest.length_le
    {pattern : Pattern} (orderly : pattern.IsOrderly)
    {text : List Char} {position later : Nat} {spans found : List (Nat × Nat)}
    (family : Family pattern text later found)
    (scan : LeftmostShortest pattern text position spans)
    (reached : position ≤ later) :
    found.length ≤ spans.length := by
  induction family generalizing position spans with
  | nil => exact Nat.zero_le _
  | @cons later start stop rest behind spanned _ inductionHypothesis =>
      have positioned : position ≤ start := Nat.le_trans reached behind
      cases scan with
      | done none => exact absurd spanned (none start stop positioned)
      | @next _ firstStart firstStop remaining _ firstSpanned leftmost shortest restScan =>
          obtain ⟨sooner, bound, soonerSpanned⟩ :=
            orderly _ _ _ _ _ firstSpanned spanned (leftmost start stop positioned spanned)
          have stopsFirst : firstStop ≤ stop :=
            Nat.le_trans (shortest sooner soonerSpanned) bound
          exact Nat.succ_le_succ (inductionHypothesis restScan stopsFirst)

/-- Where a span starts, the scan for an orderly pattern has taken a span that stops no later. -/
theorem LeftmostShortest.exists_mem_across
    {pattern : Pattern} (orderly : pattern.IsOrderly)
    {text : List Char} {position start stop : Nat} {spans : List (Nat × Nat)}
    (scan : LeftmostShortest pattern text position spans)
    (spanned : pattern.HasSpan text start stop)
    (reached : position ≤ start) :
    ∃ span ∈ spans, span.1 ≤ start ∧ start < span.2 ∧ span.2 ≤ stop := by
  induction scan with
  | done none => exact absurd spanned (none start stop reached)
  | @next position firstStart firstStop later _ firstSpanned leftmost shortest _
      inductionHypothesis =>
      have startsFirst : firstStart ≤ start := leftmost start stop reached spanned
      by_cases across : start < firstStop
      · obtain ⟨sooner, bound, soonerSpanned⟩ :=
          orderly _ _ _ _ _ firstSpanned spanned startsFirst
        have stopsFirst : firstStop ≤ stop :=
          Nat.le_trans (shortest sooner soonerSpanned) bound
        exact ⟨(firstStart, firstStop), List.mem_cons_self, startsFirst, across, stopsFirst⟩
      · obtain ⟨span, member, bounds⟩ := inductionHypothesis (Nat.not_lt.mp across)
        exact ⟨span, List.mem_cons_of_mem _ member, bounds⟩

/-- Two spans that start at different places do not overlap. -/
def IsApart (pattern : Pattern) : Prop :=
  ∀ (text : List Char) (start stop laterStart laterStop : Nat),
    pattern.HasSpan text start stop →
    pattern.HasSpan text laterStart laterStop →
    start < laterStart →
    stop ≤ laterStart

/-- The spans of a pattern are apart if a match begins only behind another one that begins
earlier. -/
theorem IsApart.of_matches
    {pattern : Pattern}
    (behind :
      ∀ {matched after front inner rest : List Char},
        Matches pattern.items matched →
        Matches pattern.items inner →
        front ≠ [] →
        front ++ (inner ++ rest) = matched ++ after →
        matched <+: front) :
    pattern.IsApart := by
  intro text start stop laterStart laterStop spanned laterSpanned less
  obtain ⟨before, matched, after, front, inner, rest, rfl, division, ⟨rfl, rfl⟩, ⟨rfl, rfl⟩,
      spans, laterSpans⟩ := spanned.exists_front laterSpanned (Nat.le_of_lt less)
  have nonempty : front ≠ [] := by
    rintro rfl
    simp at less
  obtain ⟨between, rfl⟩ := behind spans.1 laterSpans.1 nonempty division.symm
  simp only [List.length_append]
  omega

/-- The scan for a pattern with spans apart stops at every place where a span starts. -/
theorem LeftmostShortest.exists_mem
    {pattern : Pattern} (apart : pattern.IsApart)
    {text : List Char} {position start stop : Nat} {spans : List (Nat × Nat)}
    (scan : LeftmostShortest pattern text position spans)
    (spanned : pattern.HasSpan text start stop)
    (reached : position ≤ start) :
    ∃ sooner,
      sooner ≤ stop ∧ pattern.HasSpan text start sooner ∧ (start, sooner) ∈ spans := by
  induction scan with
  | done none => exact absurd spanned (none start stop reached)
  | next _ firstSpanned leftmost shortest _ inductionHypothesis =>
      rcases Nat.eq_or_lt_of_le (leftmost start stop reached spanned) with same | less
      · subst same
        exact ⟨_, shortest stop spanned, firstSpanned, List.mem_cons_self⟩
      · obtain ⟨sooner, bound, soonerSpanned, member⟩ :=
          inductionHypothesis (apart _ _ _ _ _ firstSpanned spanned less)
        exact ⟨sooner, bound, soonerSpanned, List.mem_cons_of_mem _ member⟩

theorem IsImpartial.ofSpan_mem_occurrences
    {pattern : Pattern} (impartial : pattern.IsImpartial) (apart : pattern.IsApart)
    {text : List Char} {start stop : Nat}
    (spanned : pattern.HasSpan text start stop) :
    ∃ sooner, Occurrence.ofSpan text (start, sooner) ∈ pattern.occurrences text := by
  obtain ⟨sooner, _, _, member⟩ :=
    (impartial.leftmostShortest_occurrences text).exists_mem apart spanned (Nat.zero_le _)
  refine ⟨sooner, ?_⟩
  rw [impartial.occurrences_eq_map_ofSpan text]
  exact List.mem_map_of_mem member

end Pattern

end SourceCritic
