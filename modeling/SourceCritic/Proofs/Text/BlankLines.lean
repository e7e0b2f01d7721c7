import Mathlib.Algebra.BigOperators.Intervals
import SourceCritic.Text.Line
import SourceCritic.Text.Space

/-!
# Blank lines put into a text

A padding says which blank lines are put behind each line of a text.  A line ends with its `'\n'`,
so this is where they begin, and nothing is put behind the last line, which has no `'\n'`.

A part of a text is padded like the whole, as long as it is known on which line it begins.
-/

namespace SourceCritic.Text

/-- A line that is empty or made of white space only. -/
structure BlankLine where
  characters : List Char
  isBlank : Text.isBlank characters = true
  inLine : '\n' ∉ characters

theorem not_mem_of_isBlank
    {line : List Char} (blank : isBlank line = true)
    {character : Char} (solid : isSpace character = false) : character ∉ line := by
  intro member
  have space := List.all_eq_true.mp blank character member
  rw [solid] at space
  cases space

/-- The blank lines that are put behind the line with each number. -/
abbrev Padding : Type :=
  Nat → List BlankLine

namespace Padding

/-- What is put behind the line with a number.  Each blank line is ended by a `'\n'`. -/
def behind (padding : Padding) (number : Nat) : List Char :=
  (padding number).flatMap fun line => line.characters ++ ['\n']

/-- A text with all blank lines put into it, if it begins on the line with a number. -/
def applyFrom (padding : Padding) : (number : Nat) → (text : List Char) → List Char
  | _, [] => []
  | number, head :: rest =>
      if head = '\n' then
        '\n' :: (padding.behind number ++ padding.applyFrom (number + 1) rest)
      else
        head :: padding.applyFrom number rest

/-- A text with all blank lines put into it. -/
def apply (padding : Padding) (text : List Char) : List Char :=
  padding.applyFrom 1 text

/-- The number of blank lines that are put behind some successive lines: from the first one on and
up to, but not including, another one. -/
def linesBetween (padding : Padding) (start stop : Nat) : Nat :=
  ∑ number ∈ Finset.Ico start stop, (padding number).length

variable (padding : Padding)

@[simp]
theorem applyFrom_nil (number : Nat) : padding.applyFrom number [] = [] :=
  rfl

private theorem applyFrom_newline (number : Nat) (rest : List Char) :
    padding.applyFrom number ('\n' :: rest) =
      '\n' :: (padding.behind number ++ padding.applyFrom (number + 1) rest) :=
  rfl

theorem applyFrom_cons_of_ne
    {head : Char} (notNewline : head ≠ '\n') (number : Nat) (rest : List Char) :
    padding.applyFrom number (head :: rest) = head :: padding.applyFrom number rest := by
  rw [applyFrom, if_neg notNewline]

/-! ## What is put behind a line -/

theorem isSpace_of_mem_behind
    {padding : Padding} {number : Nat} {character : Char}
    (member : character ∈ padding.behind number) : isSpace character = true := by
  obtain ⟨line, _, inside⟩ := List.mem_flatMap.mp member
  rcases List.mem_append.mp inside with inLine | isNewline
  · exact List.all_eq_true.mp line.isBlank character inLine
  · rw [List.mem_singleton.mp isNewline]
    decide

theorem exists_newline_behind_eq (number : Nat) :
    ∃ front, '\n' :: padding.behind number = front ++ ['\n'] := by
  rw [behind]
  rcases List.eq_nil_or_concat (padding number) with empty | ⟨earlier, last, shape⟩
  · exact ⟨[], by rw [empty, List.flatMap_nil, List.nil_append]⟩
  · refine
      ⟨'\n' :: (earlier.flatMap (fun line => line.characters ++ ['\n']) ++ last.characters), ?_⟩
    rw [shape, List.concat_eq_append, List.flatMap_append, List.flatMap_singleton,
      ← List.append_assoc, List.cons_append]

private theorem count_newline_behind (number : Nat) :
    (padding.behind number).count '\n' = (padding number).length := by
  rw [behind]
  induction padding number with
  | nil => rfl
  | cons line later inductionHypothesis =>
      rw [List.flatMap_cons, List.count_append, inductionHypothesis, List.count_append,
        List.count_eq_zero.mpr line.inLine, List.count_singleton_self, List.length_cons]
      omega

private theorem lines_behind_append (number : Nat) (rest : List Char) :
    lines (padding.behind number ++ rest) =
      (padding number).map BlankLine.characters ++ lines rest := by
  rw [behind]
  induction padding number with
  | nil => rfl
  | cons line later inductionHypothesis =>
      rw [List.flatMap_cons, List.append_assoc, List.append_assoc, List.singleton_append,
        lines_append_newline, lines_of_not_mem line.inLine, inductionHypothesis, List.map_cons]
      rfl

/-! ## Counting lines -/

private theorem linesBetween_succ {start stop : Nat} (less : start < stop) :
    padding.linesBetween start stop =
      (padding start).length + padding.linesBetween (start + 1) stop :=
  Finset.sum_eq_sum_Ico_succ_bot less _

/-- A text gets more lines by those that are put behind its lines but the last one. -/
theorem lineCount_applyFrom (number : Nat) (text : List Char) :
    lineCount (padding.applyFrom number text) =
      lineCount text + padding.linesBetween number (number + (lineCount text - 1)) := by
  have counted :
      (padding.applyFrom number text).count '\n' =
        text.count '\n' + padding.linesBetween number (number + text.count '\n') := by
    induction text generalizing number with
    | nil => simp [linesBetween]
    | cons head rest inductionHypothesis =>
        by_cases isNewline : head = '\n'
        · have divided :
              padding.linesBetween number (number + (rest.count '\n' + 1)) =
                (padding number).length +
                  padding.linesBetween (number + 1) (number + 1 + rest.count '\n') := by
            rw [linesBetween_succ padding (by omega), Nat.add_assoc number 1, Nat.add_comm 1]
          rw [isNewline, applyFrom_newline, List.count_cons_self, List.count_append,
            inductionHypothesis, count_newline_behind, List.count_cons_self, divided]
          omega
        · rw [applyFrom_cons_of_ne padding isNewline, List.count_cons_of_ne isNewline,
            List.count_cons_of_ne isNewline, inductionHypothesis]
  rw [lineCount, lineCount, Nat.add_sub_cancel_left, counted, Nat.add_assoc]

/-! ## The lines of a padded text -/

/-- Lines with the blank lines put behind each of them but the last one. -/
def linesFrom (padding : Padding) : (number : Nat) → (divided : List (List Char)) →
    List (List Char)
  | _, [] => []
  | _, [line] => [line]
  | number, line :: next :: later =>
      line ::
        ((padding number).map BlankLine.characters ++
          padding.linesFrom (number + 1) (next :: later))

/-- Apart from the first line itself, nothing depends on what the first line is. -/
theorem exists_linesFrom_cons (number : Nat) (later : List (List Char)) :
    ∃ others, ∀ line, padding.linesFrom number (line :: later) = line :: others := by
  cases later with
  | nil => exact ⟨[], fun _ => rfl⟩
  | cons next rest => exact ⟨_, fun _ => rfl⟩

/-- The lines of a padded text are the lines of the text with the blank ones between them. -/
theorem lines_applyFrom (number : Nat) (text : List Char) :
    lines (padding.applyFrom number text) = padding.linesFrom number (lines text) := by
  induction text generalizing number with
  | nil => rfl
  | cons head rest inductionHypothesis =>
      obtain ⟨line, later, divided⟩ := List.exists_cons_of_ne_nil (lines_ne_nil rest)
      by_cases isNewline : head = '\n'
      · rw [isNewline, applyFrom_newline, lines_newline, lines_newline, lines_behind_append,
          inductionHypothesis, divided]
        rfl
      · obtain ⟨others, extended⟩ := padding.exists_linesFrom_cons number later
        have dividedRest : lines (padding.applyFrom number rest) = line :: others := by
          rw [inductionHypothesis, divided, extended]
        rw [applyFrom_cons_of_ne padding isNewline, lines_cons_of_ne isNewline dividedRest,
          lines_cons_of_ne isNewline divided, extended]

example :
    lines
        (Padding.apply (fun number => if number = 2 then [⟨[' '], rfl, by decide⟩] else [])
          "a\nb\nc".toList) =
      ["a".toList, "b".toList, " ".toList, "c".toList] := by
  decide

end Padding

end SourceCritic.Text
