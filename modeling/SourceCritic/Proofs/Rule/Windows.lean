import Mathlib
import SourceCritic.Rule.Nesting

/-!
# Windows of lines

The nesting rule reads a text line by line.  It counts the levels that are open, closes no level
that is not open, and remembers the largest count.  Here the largest count is described without
reading the text in order.  A window is a stretch of successive lines.  It is worth the number of
its lines that mention a function, less the closing braces that are too many on each of its lines
but the last.  The largest count is the worth of the best window.

The invariant of the reading is that the levels which are open belong to the best window that
ends with the line read last: to forget a negative count is to begin a new window.
-/

namespace SourceCritic.Rule.Nesting

/-! ## The worth of a window -/

/-- The line with a number.  The first line has the number 1. -/
def numbered (lines : List (List Char)) (number : Nat) : List Char :=
  lines.getD (number - 1) []

/-- One for a line that mentions a function, and zero for any other line. -/
def opening (line : List Char) : Int :=
  if "function".toList <:+: line ∨ "=>".toList <:+: line then 1 else 0

/-- The closing braces of a line that are too many for its opening braces. -/
def surplus (line : List Char) : Int :=
  max 0 ((line.count '}' : Int) - line.count '{')

/-- The worth of the window from one line to another one, both of them included. -/
def worth (lines : List (List Char)) (first last : Nat) : Int :=
  ∑ number ∈ Finset.Icc first last, opening (numbered lines number) -
    ∑ number ∈ Finset.Ico first last, surplus (numbered lines number)

/-- The worths of the windows that end with one of the first lines. -/
def worths (lines : List (List Char)) (count : Nat) : Set Int :=
  {value |
    ∃ first last,
      1 ≤ first ∧ first ≤ last ∧ last ≤ count ∧ value = worth lines first last}

private theorem worth_self (lines : List (List Char)) (number : Nat) :
    worth lines number number = opening (numbered lines number) := by
  simp [worth]

private theorem worth_succ
    (lines : List (List Char)) {first last : Nat} (ordered : first ≤ last) :
    worth lines first (last + 1) =
      worth lines first last - surplus (numbered lines last) +
        opening (numbered lines (last + 1)) := by
  have openings := Finset.sum_Icc_succ_top (Nat.le_succ_of_le ordered) fun number =>
    opening (numbered lines number)
  have closings := Finset.sum_Ico_succ_top ordered fun number => surplus (numbered lines number)
  rw [worth, worth, openings, closings]
  ring

private theorem opening_nonneg (line : List Char) : 0 ≤ opening line := by
  unfold opening
  split <;> decide

/-! ## Reading one more line -/

private theorem opening_eq_of_opensLevel (line : List Char) :
    opening line = if opensLevel line then 1 else 0 := by
  unfold opening opensLevel
  simp only [Bool.or_eq_true, Text.holds_eq_true_iff]

private theorem surplus_eq_closedLevels (line : List Char) : surplus line = closedLevels line := by
  unfold surplus closedLevels
  omega

private theorem Depth.current_next (depth : Depth) (line : List Char) :
    ((depth.next line).current : Int) = max 0 (depth.current + opening line - surplus line) := by
  rw [opening_eq_of_opensLevel, surplus_eq_closedLevels]
  simp only [Depth.next]
  split <;> omega

private theorem Depth.largest_next (depth : Depth) (line : List Char) :
    ((depth.next line).largest : Int) =
      max (depth.largest : Int) (depth.current + opening line) := by
  rw [opening_eq_of_opensLevel]
  simp only [Depth.next]
  split <;> omega

/-- What has been read of a text before a line: the open levels belong to the best window that ends
there, unless no level is open, and the largest number of levels to the best window at all. -/
structure Depth.Follows (lines : List (List Char)) (count : Nat) (depth : Depth) : Prop where
  currentBound :
    ∀ first, 1 ≤ first → first ≤ count →
      worth lines first count - surplus (numbered lines count) ≤ depth.current
  currentReached :
    depth.current = 0 ∨
      ∃ first,
        1 ≤ first ∧ first ≤ count ∧
          (depth.current : Int) = worth lines first count - surplus (numbered lines count)
  largestBound : ∀ value ∈ worths lines count, value ≤ depth.largest
  largestReached : depth.largest = 0 ∨ (depth.largest : Int) ∈ worths lines count

namespace Depth.Follows

variable {lines : List (List Char)} {count : Nat} {depth : Depth}
  (follows : depth.Follows lines count)

include follows

/-- No window that ends with the next line is worth more than the levels that are open there. -/
private theorem worth_next_le {first : Nat} (positive : 1 ≤ first) (ordered : first ≤ count + 1) :
    worth lines first (count + 1) ≤ depth.current + opening (numbered lines (count + 1)) := by
  by_cases fresh : first = count + 1
  · rw [fresh, worth_self]
    omega
  · have within : first ≤ count := by
      omega
    have bound := follows.currentBound first positive within
    rw [worth_succ lines within]
    omega

/-- Some window that ends with the next line is worth as much. -/
private theorem exists_worth_next :
    ∃ first,
      1 ≤ first ∧ first ≤ count + 1 ∧
        (depth.current : Int) + opening (numbered lines (count + 1)) =
          worth lines first (count + 1) := by
  rcases follows.currentReached with closed | ⟨first, positive, within, reached⟩
  · refine ⟨count + 1, by omega, Nat.le_refl _, ?_⟩
    rw [worth_self, closed]
    simp
  · refine ⟨first, positive, by omega, ?_⟩
    rw [worth_succ lines within, reached]

/-- One more line is followed as well, as a window is either continued or begun anew. -/
theorem next : (depth.next (numbered lines (count + 1))).Follows lines (count + 1) := by
  have current := depth.current_next (numbered lines (count + 1))
  have largest := depth.largest_next (numbered lines (count + 1))
  obtain ⟨best, bestPositive, bestWithin, reached⟩ := follows.exists_worth_next
  refine ⟨?_, ?_, ?_, ?_⟩
  · intro first positive ordered
    have bound := follows.worth_next_le positive ordered
    omega
  · by_cases stillOpen :
        0 < (depth.current : Int) + opening (numbered lines (count + 1)) -
          surplus (numbered lines (count + 1))
    · right
      refine ⟨best, bestPositive, bestWithin, ?_⟩
      omega
    · left
      omega
  · intro value member
    rcases member with ⟨first, last, positive, ordered, within, rfl⟩
    by_cases isNext : last = count + 1
    · subst isNext
      have bound := follows.worth_next_le positive ordered
      omega
    · have earlier :=
        follows.largestBound _ ⟨first, last, positive, ordered, by omega, rfl⟩
      omega
  · by_cases grown :
        (depth.largest : Int) < depth.current + opening (numbered lines (count + 1))
    · right
      refine ⟨best, count + 1, bestPositive, bestWithin, Nat.le_refl _, ?_⟩
      omega
    · have kept : (depth.next (numbered lines (count + 1))).largest = depth.largest := by
        omega
      rw [kept]
      rcases follows.largestReached with none | ⟨first, last, positive, ordered, within, same⟩
      · exact Or.inl none
      · exact Or.inr ⟨first, last, positive, ordered, by omega, same⟩

end Depth.Follows

/-! ## Reading a text -/

private theorem follows_start (lines : List (List Char)) :
    Depth.Follows lines 0 { current := 0, largest := 0 } := by
  refine ⟨?_, Or.inl rfl, ?_, Or.inl rfl⟩
  · intro first positive within
    omega
  · intro value member
    rcases member with ⟨first, last, positive, ordered, within, _⟩
    omega

/-- The depth in front of any line follows the best window that ends there. -/
theorem follows_foldl
    (lines : List (List Char)) {count : Nat} (within : count ≤ lines.length) :
    ((lines.take count).foldl Depth.next { current := 0, largest := 0 }).Follows lines count := by
  induction count with
  | zero => exact follows_start lines
  | succ count inductionHypothesis =>
      have follows := inductionHypothesis (by omega)
      have line : lines[count] = numbered lines (count + 1) := by
        simp [numbered, List.getD_eq_getElem?_getD, List.getElem?_eq_getElem within]
      rw [List.take_succ_eq_append_getElem within, List.foldl_append, line]
      exact follows.next

/-- The nesting of a text is the worth of its best window. -/
theorem isGreatest_deepest (text : List Char) :
    IsGreatest (worths (Text.lines text) (Text.lines text).length) (deepest text) := by
  have follows := follows_foldl (Text.lines text) (Nat.le_refl _)
  rw [List.take_length] at follows
  have lineExists : 1 ≤ (Text.lines text).length := by
    rw [Text.length_lines, Text.lineCount]
    omega
  constructor
  · rcases follows.largestReached with none | reached
    · -- If no level is ever opened, then the window of the first line alone is worth nothing.
      have member :
          worth (Text.lines text) 1 1 ∈ worths (Text.lines text) (Text.lines text).length :=
        ⟨1, 1, Nat.le_refl 1, Nat.le_refl 1, lineExists, rfl⟩
      have bound := follows.largestBound _ member
      have nonneg := opening_nonneg (numbered (Text.lines text) 1)
      rw [← worth_self] at nonneg
      have same : (deepest text : Int) = worth (Text.lines text) 1 1 := by
        rw [deepest, none]
        rw [none] at bound
        omega
      rw [same]
      exact member
    · exact reached
  · intro value member
    exact follows.largestBound value member

/-- The depth that the rule measures is the worth of the best window of lines.  Up to 4 nothing is
reported, and otherwise one violation on line 1, which is brutal if the depth is above 7. -/
theorem check_reports_best_window (path : String) (text : List Char) :
    IsGreatest (worths (Text.lines text) (Text.lines text).length) (deepest text) ∧
      check path text =
        if deepest text ≤ 4 then
          []
        else
          [{ rule := "callback_hell"
             filePath := path
             lineNumber := 1
             severity := if 7 < deepest text then .brutal else .moderate
             message :=
              message (deepest text) (if 7 < deepest text then .brutal else .moderate)
             context := .object [("max_nesting", .count (deepest text))] }] := by
  refine ⟨isGreatest_deepest text, ?_⟩
  unfold check severity?
  by_cases shallow : deepest text ≤ 4
  · simp only [shallow, if_true]
  · by_cases medium : deepest text ≤ 7
    · have notHarsh : ¬ 7 < deepest text := by
        omega
      simp only [shallow, medium, notHarsh, if_true, if_false]
      rfl
    · have harsh : 7 < deepest text := by
        omega
      simp only [shallow, medium, harsh, if_true, if_false]
      rfl

end SourceCritic.Rule.Nesting
