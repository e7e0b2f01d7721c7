import Mathlib
import SourceCritic.Proofs.Text.Bytes
import SourceCritic.Text.Line

/-!
# Numbered lines

Lines are numbered from one on.  The bytes of a text fall into the ranges of its lines, with the
byte of a `'\n'` behind each range but the last.  Ranges of different lines have no byte in common,
so a byte of a text that is not part of a `'\n'` tells the line it is on.

To number the line of some place, it is enough to count the `'\n'` in front of it.
-/

namespace SourceCritic.Text

/-- The line with a number, if there is one. -/
def line? (text : List Char) (number : Nat) : Option (List Char) :=
  if number = 0 then none else (lines text)[number - 1]?

/-- The number of bytes of some lines, each of them with a `'\n'` behind it. -/
def endedLength (divided : List (List Char)) : Nat :=
  (divided.map fun line => (bytes line).length + 1).sum

/-- The byte at which the line with a number begins. -/
def lineStart (text : List Char) (number : Nat) : Nat :=
  endedLength ((lines text).take (number - 1))

/-- The line with a number has a byte in its range. -/
def IsOnLine (text : List Char) (number offset : Nat) : Prop :=
  ∃ line,
    line? text number = some line ∧ lineStart text number ≤ offset ∧
      offset < lineStart text number + (bytes line).length

@[simp]
theorem line?_succ (text : List Char) (index : Nat) :
    line? text (index + 1) = (lines text)[index]? := by
  simp [line?]

theorem bounds_of_line?
    {text line : List Char} {number : Nat} (found : line? text number = some line) :
    1 ≤ number ∧ number ≤ (lines text).length := by
  cases number with
  | zero => cases found
  | succ index =>
      rw [line?_succ] at found
      obtain ⟨inside, _⟩ := List.getElem?_eq_some_iff.mp found
      exact ⟨by omega, inside⟩

/-! ## Different lines have different bytes -/

private theorem endedLength_le_of_prefix
    {front divided : List (List Char)} (isPrefix : front <+: divided) :
    endedLength front ≤ endedLength divided := by
  obtain ⟨back, rfl⟩ := isPrefix
  simp only [endedLength, List.map_append, List.sum_append]
  omega

private theorem lineStart_succ
    {text line : List Char} {index : Nat} (found : (lines text)[index]? = some line) :
    lineStart text (index + 2) = lineStart text (index + 1) + ((bytes line).length + 1) := by
  obtain ⟨inside, same⟩ := List.getElem?_eq_some_iff.mp found
  simp only [lineStart, Nat.add_sub_cancel, Nat.add_succ_sub_one, endedLength]
  rw [List.take_succ_eq_append_getElem inside, same, List.map_append, List.sum_append]
  simp

/-- A line begins behind the ends of all lines with smaller numbers. -/
theorem lineStart_lt
    {text line : List Char} {number later : Nat}
    (found : line? text number = some line) (less : number < later) :
    lineStart text number + (bytes line).length < lineStart text later := by
  cases number with
  | zero => cases found
  | succ index =>
      rw [line?_succ] at found
      have next := lineStart_succ found
      have behind : lineStart text (index + 2) ≤ lineStart text later := by
        apply endedLength_le_of_prefix
        apply List.take_prefix_take_left
        omega
      omega

/-- The ranges of two lines have no byte in common. -/
theorem IsOnLine.unique
    {text : List Char} {number other offset : Nat}
    (isOn : IsOnLine text number offset) (isOnOther : IsOnLine text other offset) :
    other = number := by
  obtain ⟨line, found, reached, within⟩ := isOn
  obtain ⟨otherLine, otherFound, otherReached, otherWithin⟩ := isOnOther
  rcases Nat.lt_trichotomy other number with less | same | more
  · have behind := lineStart_lt otherFound less
    omega
  · exact same
  · have behind := lineStart_lt found more
    omega

/-! ## The line of a place -/

/-- A text stands at a byte that is on the line with a number, and on no other line. -/
structure IsAnchored (text word : List Char) (offset number : Nat) : Prop where
  isOnLine : IsOnLine text number offset
  unique : ∀ other, IsOnLine text other offset → other = number
  reads :
    ∃ front back,
      line? text number = some (front ++ (word ++ back)) ∧
        offset = lineStart text number + (bytes front).length

private theorem exists_lines_eq_cons
    {word : List Char} (rest : List Char) (inLine : '\n' ∉ word) :
    ∃ back later, lines (word ++ rest) = (word ++ back) :: later := by
  induction word with
  | nil => exact List.exists_cons_of_ne_nil (lines_ne_nil rest)
  | cons head tail inductionHypothesis =>
      rw [List.mem_cons, not_or] at inLine
      obtain ⟨back, later, divided⟩ := inductionHypothesis inLine.2
      exact ⟨back, later, lines_cons_of_ne (Ne.symm inLine.1) divided⟩

/-- A line that a text without `'\n'` stands on is cut into what is in front of it, the text itself
and what is behind it. -/
theorem exists_line_of_word
    (before : List Char) {word : List Char} (rest : List Char) (inLine : '\n' ∉ word) :
    ∃ front back,
      (lines (before ++ (word ++ rest)))[before.count '\n']? = some (front ++ (word ++ back)) ∧
        (bytes before).length =
          endedLength ((lines (before ++ (word ++ rest))).take (before.count '\n')) +
            (bytes front).length := by
  induction before with
  | nil =>
      obtain ⟨back, later, divided⟩ := exists_lines_eq_cons rest inLine
      exact ⟨[], back, by simp [divided], by simp [endedLength]⟩
  | cons head before inductionHypothesis =>
      obtain ⟨front, back, found, counted⟩ := inductionHypothesis
      by_cases isNewline : head = '\n'
      · refine ⟨front, back, ?_, ?_⟩
        · rw [isNewline, List.cons_append, lines_newline, List.count_cons_self,
            List.getElem?_cons_succ, found]
        · rw [isNewline, List.cons_append, lines_newline, List.count_cons_self,
            List.take_succ_cons, bytes_cons_of_isAscii (by decide), List.length_cons, counted]
          simp only [endedLength, List.map_cons, List.sum_cons, bytes_nil, List.length_nil]
          omega
      · obtain ⟨line, later, divided⟩ :=
          List.exists_cons_of_ne_nil (lines_ne_nil (before ++ (word ++ rest)))
        have sameCount : (head :: before).count '\n' = before.count '\n' := by
          rw [List.count_cons_of_ne isNewline]
        rw [divided] at found counted
        rw [List.cons_append, lines_cons_of_ne isNewline divided, sameCount, bytes_cons,
          List.length_append, counted]
        -- The character belongs to the first line, on which the text may or may not stand.
        cases number : before.count '\n' with
        | zero =>
            rw [number, List.getElem?_cons_zero, Option.some.injEq] at found
            refine ⟨head :: front, back, ?_, ?_⟩
            · rw [List.getElem?_cons_zero, found, List.cons_append]
            · simp [endedLength, bytes_cons]
        | succ index =>
            rw [number, List.getElem?_cons_succ] at found
            refine ⟨front, back, ?_, ?_⟩
            · rw [List.getElem?_cons_succ, found]
            · simp only [endedLength, List.take_succ_cons, List.map_cons, List.sum_cons,
                bytes_cons, List.length_append]
              omega

/-- Behind as many `'\n'` as there are, a text stands on the line with the next number. -/
theorem isAnchored_append
    (before : List Char) {word : List Char} (rest : List Char)
    (nonempty : word ≠ []) (inLine : '\n' ∉ word) :
    IsAnchored (before ++ (word ++ rest)) word (bytes before).length (lineCount before) := by
  obtain ⟨front, back, found, counted⟩ := exists_line_of_word before rest inLine
  have number : lineCount before = before.count '\n' + 1 := by
    rw [lineCount, Nat.add_comm]
  have positive : 0 < (bytes word).length := by
    have longer := List.length_pos_iff.mpr nonempty
    simpa using length_bytes_lt_of_prefix List.nil_prefix longer
  have starts :
      lineStart (before ++ (word ++ rest)) (lineCount before) =
        endedLength ((lines (before ++ (word ++ rest))).take (before.count '\n')) := by
    rw [number, lineStart, Nat.add_sub_cancel]
  rw [← starts] at counted
  have isOnLine :
      IsOnLine (before ++ (word ++ rest)) (lineCount before) (bytes before).length := by
    refine ⟨front ++ (word ++ back), ?_, ?_, ?_⟩
    · rw [number, line?_succ, found]
    · omega
    · simp only [bytes_append, List.length_append]
      omega
  refine ⟨isOnLine, fun other isOnOther => isOnLine.unique isOnOther, front, back, ?_, counted⟩
  rw [number, line?_succ, found]

theorem lineCount_le_of_prefix
    {first second : List Char} (isPrefix : first <+: second) :
    lineCount first ≤ lineCount second := by
  obtain ⟨between, rfl⟩ := isPrefix
  rw [lineCount, lineCount, List.count_append]
  omega

end SourceCritic.Text
