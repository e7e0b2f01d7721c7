import SourceCritic.Proofs.Pattern.Lines
import SourceCritic.Proofs.Rule.Overlap

/-!
# Import statements and lines

An import statement fills lines, and mostly it fills one line.  White space may contain line
breaks, however, so a line that ends with the word `import` or `from` can begin a statement that
goes on with the next lines.  Here it is shown that this never hides a statement which stands on
a line of its own: the match that reaches such a line stops at the end of it, and so the rule
counts every such line once.

The reason is that a match which begins earlier can always be made to stop no later than the line
does, and that the scan takes the shortest match.  Since a match stops at the end of a line, it
stops exactly at the end of that line.
-/

namespace SourceCritic

open Text (brokenLines Line)

namespace Occurrence

/-- A line lies wholly inside an occurrence. -/
def Holds (occurrence : Occurrence) (line : Line) : Prop :=
  occurrence.span.1 ≤ line.start ∧ line.stop ≤ occurrence.span.2

/-- An occurrence lies wholly inside a line. -/
def IsWithin (occurrence : Occurrence) (line : Line) : Prop :=
  line.start ≤ occurrence.span.1 ∧ occurrence.span.2 ≤ line.stop

end Occurrence

/-! ## Patterns that fill lines -/

namespace Pattern

/-- The matches of a pattern go from the start of a line to the end of one, and a scan takes the
shortest of them. -/
structure FillsLines (pattern : Pattern) : Prop where
  first : pattern.first = .lineStart
  last : pattern.last = .lineEnd
  impartial : pattern.IsImpartial
  orderly : pattern.IsOrderly

namespace FillsLines

section Spans

variable {pattern : Pattern} (fills : pattern.FillsLines) {text : List Char} {start stop : Nat}
  (spanned : pattern.HasSpan text start stop)

include fills spanned

private theorem exists_line_start : ∃ line ∈ brokenLines text, line.start = start := by
  obtain ⟨before, matched, after, rfl, rfl, _, spans⟩ := spanned
  have started := spans.2.1
  rw [fills.first] at started
  rw [List.append_assoc]
  exact Text.exists_line_of_lineStart started

private theorem exists_line_stop : ∃ line ∈ brokenLines text, line.stop = stop := by
  obtain ⟨before, matched, after, rfl, _, rfl, spans⟩ := spanned
  have ended := spans.2.2
  rw [fills.last] at ended
  exact Text.exists_line_of_lineEnd ended

/-- A span that starts in a line starts with it. -/
theorem start_eq
    {line : Line} (member : line ∈ brokenLines text)
    (reached : line.start ≤ start) (inside : start ≤ line.stop) :
    start = line.start := by
  obtain ⟨other, otherMember, rfl⟩ := fills.exists_line_start spanned
  have reaches : line.start ≤ other.stop := Nat.le_trans reached other.start_le_stop
  rw [Text.eq_of_mem_brokenLines member otherMember inside reaches]

/-- A span that stops in a line stops with it. -/
theorem stop_eq
    {line : Line} (member : line ∈ brokenLines text)
    (reached : line.start ≤ stop) (inside : stop ≤ line.stop) :
    stop = line.stop := by
  obtain ⟨other, otherMember, rfl⟩ := fills.exists_line_stop spanned
  have reaches : other.start ≤ line.stop := Nat.le_trans other.start_le_stop inside
  rw [Text.eq_of_mem_brokenLines member otherMember reaches reached]

end Spans

variable {pattern : Pattern} (fills : pattern.FillsLines) {text : List Char} {line : Line}
  (member : line ∈ brokenLines text)

include fills member

private theorem hasSpan_line_iff :
    pattern.HasSpan text line.start line.stop ↔ Matches pattern.items line.content := by
  obtain ⟨before, after, rfl, place, isLine⟩ := (Text.mem_brokenLines_iff text line).mp member
  rw [Line.stop, place, hasSpan_append_iff]
  constructor
  · rintro ⟨matched, rest, division, sameLength, spans⟩
    obtain ⟨rfl, rfl⟩ := List.append_inj division (Nat.add_left_cancel sameLength)
    exact spans.1
  · intro matching
    refine ⟨line.content, after, rfl, rfl, matching, ?_, ?_⟩
    · rw [fills.first]
      exact isLine.started
    · rw [fills.last]
      exact isLine.ended

/-- The scan reaches a line that the pattern matches, with an occurrence that stops at its end. -/
theorem exists_holding (matching : Matches pattern.items line.content) :
    ∃ found ∈ pattern.occurrences text, found.Holds line ∧ found.span.2 = line.stop := by
  have spanned := (fills.hasSpan_line_iff member).mpr matching
  have scan := fills.impartial.leftmostShortest_occurrences text
  obtain ⟨span, inScan, before, across, bounded⟩ :=
    scan.exists_mem_across fills.orderly spanned (Nat.zero_le _)
  obtain ⟨found, foundMember, rfl⟩ := List.mem_map.mp inScan
  have stops : found.span.2 = line.stop :=
    fills.stop_eq (fills.impartial.hasSpan_of_mem_occurrences text foundMember) member
      (Nat.le_of_lt across) bounded
  exact ⟨found, foundMember, ⟨before, Nat.le_of_eq stops.symm⟩, stops⟩

private theorem eq_of_holds
    (matching : Matches pattern.items line.content) {first second : Occurrence}
    (firstMember : first ∈ pattern.occurrences text)
    (secondMember : second ∈ pattern.occurrences text)
    (firstHolds : first.Holds line) (secondHolds : second.Holds line) :
    first = second := by
  have nonempty : line.start < line.stop :=
    fills.impartial.start_lt_stop ((fills.hasSpan_line_iff member).mpr matching)
  apply fills.impartial.eq_of_shared text firstMember secondMember
  · exact Nat.lt_of_le_of_lt secondHolds.1 (Nat.lt_of_lt_of_le nonempty firstHolds.2)
  · exact Nat.lt_of_le_of_lt firstHolds.1 (Nat.lt_of_lt_of_le nonempty secondHolds.2)

/-- Every occurrence that holds a line which the pattern matches stops with that line. -/
theorem stop_eq_of_holds
    (matching : Matches pattern.items line.content) {found : Occurrence}
    (foundMember : found ∈ pattern.occurrences text) (holds : found.Holds line) :
    found.span.2 = line.stop := by
  obtain ⟨other, otherMember, otherHolds, stops⟩ := fills.exists_holding member matching
  rw [fills.eq_of_holds member matching foundMember otherMember holds otherHolds]
  exact stops

/-- An occurrence within one line is the whole of it. -/
theorem matches_of_isWithin
    {found : Occurrence} (foundMember : found ∈ pattern.occurrences text)
    (within : found.IsWithin line) :
    Matches pattern.items line.content ∧ found.span.2 = line.stop := by
  have spanned := fills.impartial.hasSpan_of_mem_occurrences text foundMember
  have ordered := spanned.start_le_stop
  have starts : found.span.1 = line.start :=
    fills.start_eq spanned member within.1 (Nat.le_trans ordered within.2)
  have stops : found.span.2 = line.stop :=
    fills.stop_eq spanned member (Nat.le_trans within.1 ordered) within.2
  rw [starts, stops] at spanned
  exact ⟨(fills.hasSpan_line_iff member).mp spanned, stops⟩

end FillsLines

/-! ## Counting lines -/

/-- If things stop one behind the other, and each of them stops where another thing does, then there
are at least as many other things. -/
private theorem length_le_of_ends
    {α β : Type} {items : List α} {others : List β} {stop : α → Nat} {otherStop : β → Nat}
    (increasing : items.Pairwise fun first second => stop first < stop second)
    (reached : ∀ item ∈ items, ∃ other ∈ others, otherStop other = stop item) :
    items.length ≤ others.length := by
  have distinct : (items.map stop).Nodup := by
    rw [List.Nodup, List.pairwise_map]
    exact increasing.imp Nat.ne_of_lt
  have subset : items.map stop ⊆ others.map otherStop := by
    intro place member
    obtain ⟨item, itemMember, rfl⟩ := List.mem_map.mp member
    exact List.mem_map.mpr (reached item itemMember)
  have bound := distinct.length_le_of_subset subset
  rw [List.length_map, List.length_map] at bound
  exact bound

/-- How the occurrences of a pattern lie in the lines of a text.  Some lines are whole matches on
their own: each of these is inside one occurrence, and no two of them are inside the same one. -/
structure CountsLines (pattern : Pattern) (text : List Char) : Prop where
  startsLine :
    ∀ found ∈ pattern.occurrences text, ∃ line ∈ brokenLines text, line.start = found.span.1
  stopsLine :
    ∀ found ∈ pattern.occurrences text, ∃ line ∈ brokenLines text, line.stop = found.span.2
  heldOnce :
    ∀ line ∈ brokenLines text, Matches pattern.items line.content →
      ∃! found, found ∈ pattern.occurrences text ∧ found.Holds line
  holdsOne :
    ∀ found ∈ pattern.occurrences text, ∀ first ∈ brokenLines text, ∀ second ∈ brokenLines text,
      Matches pattern.items first.content → Matches pattern.items second.content →
        found.Holds first → found.Holds second → first = second
  countLe :
    (brokenLines text).countP (fun line => Matches pattern.items line.content) ≤
      (pattern.occurrences text).length
  countEq :
    (∀ found ∈ pattern.occurrences text, ∃ line ∈ brokenLines text, found.IsWithin line) →
      (brokenLines text).countP (fun line => Matches pattern.items line.content) =
        (pattern.occurrences text).length

namespace FillsLines

variable {pattern : Pattern} (fills : pattern.FillsLines) (text : List Char)

include fills

/-- There are at least as many matches as lines that match on their own. -/
theorem countP_le_length_occurrences :
    (brokenLines text).countP (fun line => Matches pattern.items line.content) ≤
      (pattern.occurrences text).length := by
  rw [List.countP_eq_length_filter]
  apply length_le_of_ends ((Text.pairwise_stop_brokenLines text).filter _)
  intro line kept
  obtain ⟨member, matching⟩ := List.mem_filter.mp kept
  obtain ⟨found, foundMember, _, stops⟩ :=
    fills.exists_holding member (of_decide_eq_true matching)
  exact ⟨found, foundMember, stops⟩

/-- There are no more matches than such lines if no match goes beyond its line. -/
theorem length_occurrences_le_countP
    (within :
      ∀ found ∈ pattern.occurrences text, ∃ line ∈ brokenLines text, found.IsWithin line) :
    (pattern.occurrences text).length ≤
      (brokenLines text).countP (fun line => Matches pattern.items line.content) := by
  rw [List.countP_eq_length_filter]
  apply length_le_of_ends (fills.impartial.pairwise_stop text)
  intro found foundMember
  obtain ⟨line, member, inside⟩ := within found foundMember
  obtain ⟨matching, stops⟩ := fills.matches_of_isWithin member foundMember inside
  exact ⟨line, List.mem_filter.mpr ⟨member, decide_eq_true matching⟩, stops.symm⟩

theorem countsLines : pattern.CountsLines text where
  startsLine found foundMember :=
    fills.exists_line_start (fills.impartial.hasSpan_of_mem_occurrences text foundMember)
  stopsLine found foundMember :=
    fills.exists_line_stop (fills.impartial.hasSpan_of_mem_occurrences text foundMember)
  heldOnce line member matching := by
    obtain ⟨found, foundMember, holds, _⟩ := fills.exists_holding member matching
    refine ⟨found, ⟨foundMember, holds⟩, ?_⟩
    intro other otherHolds
    exact fills.eq_of_holds member matching otherHolds.1 foundMember otherHolds.2 holds
  holdsOne found foundMember first firstMember second secondMember firstMatches secondMatches
      holdsFirst holdsSecond := by
    have firstStop := fills.stop_eq_of_holds firstMember firstMatches foundMember holdsFirst
    have secondStop := fills.stop_eq_of_holds secondMember secondMatches foundMember holdsSecond
    exact Text.eq_of_stop_eq firstMember secondMember (firstStop.symm.trans secondStop)
  countLe := fills.countP_le_length_occurrences text
  countEq within :=
    Nat.le_antisymm (fills.countP_le_length_occurrences text)
      (fills.length_occurrences_le_countP text within)

end FillsLines

end Pattern

/-! ## The import rule -/

namespace Rule.Imports

/-- A statement takes whole lines. -/
theorem fillsLines_statement : statement.FillsLines where
  first := rfl
  last := rfl
  impartial := isImpartial_statement
  orderly := isOrderly_statement

/-- The texts of the matches of a pattern, in the order of the text. -/
def texts (pattern : Pattern) (text : List Char) : List String :=
  (pattern.occurrences text).map fun occurrence => String.ofList occurrence.matched

private theorem severity?_eq (count : Nat) :
    severity? count =
      if 15 ≤ count then some (if 25 ≤ count then .brutal else .moderate) else none := by
  by_cases few : count < 15
  · rw [severity?, if_pos few, if_neg (Nat.not_le.mpr few)]
  · by_cases many : 25 ≤ count
    · rw [severity?, if_neg few, if_neg (Nat.not_lt.mpr many), if_pos (Nat.not_lt.mp few),
        if_pos many]
    · rw [severity?, if_neg few, if_pos (Nat.not_le.mp many), if_pos (Nat.not_lt.mp few),
        if_neg many]

/-- Each line with a statement of its own is counted once, whatever the lines around it are.  The
violation names the statements and then the calls, each of them in the order of the text. -/
theorem check_counts_statements (path : String) (text : List Char) :
    statement.CountsLines text ∧
      ((statement.occurrences text).Pairwise fun first second =>
        first.place.offset < second.place.offset) ∧
      ((call.occurrences text).Pairwise fun first second =>
        first.place.offset < second.place.offset) ∧
      imports text = texts statement text ++ texts call text ∧
      (imports text).length =
        (statement.occurrences text).length + (call.occurrences text).length ∧
      check path text =
        if 15 ≤ (imports text).length then
          [{ rule := "import_ceremony"
             filePath := path
             lineNumber := 1
             severity := if 25 ≤ (imports text).length then .brutal else .moderate
             message :=
              message (imports text).length
                (if 25 ≤ (imports text).length then .brutal else .moderate)
             context :=
              .object
                [("import_count", .count (imports text).length),
                  ("imports", .array ((imports text).map .string))] }]
        else
          [] := by
  have pair :
      Json.sortedObject
          [("import_count", .count (imports text).length),
            ("imports", .array ((imports text).map .string))] =
        .object
          [("import_count", .count (imports text).length),
            ("imports", .array ((imports text).map .string))] :=
    Json.sortedObject_pair (by decide) (by decide) _ _
  refine
    ⟨fillsLines_statement.countsLines text, isImpartial_statement.pairwise_offset text,
      isImpartial_call.pairwise_offset text, List.map_append, ?_, ?_⟩
  · rw [imports, List.length_map, List.length_append]
  · simp only [check, severity?_eq, pair]
    by_cases many : 15 ≤ (imports text).length
    · simp only [many, if_true]
    · simp only [many, if_false]

-- White space takes the break behind the first line, and both lines are one match.
example :
    (statement.occurrences "import\r\nimport a from 'b'".toList).map Occurrence.span =
      [(0, 25)] := by
  decide

end Rule.Imports

end SourceCritic
