/-!
# Lines and places

A text is divided into lines at every `'\n'`, and at no other character, so a `'\r'` in front of
it stays at the end of its line.  A place is a position in a text together with the number of the
line that it is on.
-/

namespace SourceCritic.Text

/-- The lines of a text.  There is one more of them than there are `'\n'`. -/
def lines (text : List Char) : List (List Char) :=
  text.foldr
    (fun current divided =>
      if current = '\n' then
        [] :: divided
      else
        match divided with
        | [] => [[current]]
        | line :: later => (current :: line) :: later)
    [[]]

/-- The number of lines of a text, counted without dividing it. -/
def lineCount (text : List Char) : Nat :=
  1 + text.count '\n'

@[simp]
theorem lines_nil : lines [] = [[]] :=
  rfl

@[simp]
theorem lines_newline (rest : List Char) : lines ('\n' :: rest) = [] :: lines rest := by
  simp [lines]

theorem lines_ne_nil (text : List Char) : lines text ≠ [] := by
  cases text with
  | nil => simp
  | cons head rest =>
      by_cases isNewline : head = '\n'
      · simp [isNewline]
      · simp only [lines, List.foldr_cons, isNewline, if_false]
        split <;> simp

/-- Dividing at a character other than `'\n'` extends the first line. -/
theorem lines_cons_of_ne
    {head : Char} {rest line : List Char} {later : List (List Char)}
    (notNewline : head ≠ '\n')
    (divided : lines rest = line :: later) :
    lines (head :: rest) = (head :: line) :: later := by
  have unfolded := divided
  simp only [lines] at unfolded ⊢
  simp [notNewline, unfolded]

theorem lines_append_newline (first second : List Char) :
    lines (first ++ '\n' :: second) = lines first ++ lines second := by
  induction first with
  | nil => exact lines_newline second
  | cons head rest inductionHypothesis =>
      by_cases isNewline : head = '\n'
      · subst isNewline
        rw [List.cons_append, lines_newline, lines_newline, inductionHypothesis,
          List.cons_append]
      · obtain ⟨line, later, divided⟩ := List.exists_cons_of_ne_nil (lines_ne_nil rest)
        rw [divided, List.cons_append] at inductionHypothesis
        rw [List.cons_append, lines_cons_of_ne isNewline divided,
          lines_cons_of_ne isNewline inductionHypothesis, List.cons_append]

theorem lines_of_not_mem {text : List Char} (inLine : '\n' ∉ text) : lines text = [text] := by
  induction text with
  | nil => rfl
  | cons head rest inductionHypothesis =>
      rw [List.mem_cons, not_or] at inLine
      exact lines_cons_of_ne (Ne.symm inLine.1) (inductionHypothesis inLine.2)

theorem length_lines (text : List Char) : (lines text).length = lineCount text := by
  induction text with
  | nil => rfl
  | cons head rest inductionHypothesis =>
      by_cases isNewline : head = '\n'
      · subst isNewline
        simp [inductionHypothesis, lineCount]
        omega
      · obtain ⟨line, later, divided⟩ := List.exists_cons_of_ne_nil (lines_ne_nil rest)
        rw [lines_cons_of_ne isNewline divided]
        rw [divided] at inductionHypothesis
        simpa [lineCount, isNewline] using inductionHypothesis

/-- A position in a text: the number of characters before it and the number of its line. -/
structure Place where
  offset : Nat
  line : Nat
  deriving DecidableEq, Repr

namespace Place

/-- The beginning of a text, which is on line 1. -/
def start : Place where
  offset := 0
  line := 1

def next (place : Place) (passed : Char) : Place where
  offset := place.offset + 1
  line := if passed = '\n' then place.line + 1 else place.line

end Place

/-- Whether a text holds another one as a run of successive characters. -/
def holds (needle : List Char) : List Char → Bool
  | [] => needle.isEmpty
  | head :: rest => needle.isPrefixOf (head :: rest) || holds needle rest

theorem holds_eq_true_iff (needle text : List Char) :
    holds needle text = true ↔ needle <:+: text := by
  induction text with
  | nil => simp [holds]
  | cons head rest inductionHypothesis =>
      rw [holds, Bool.or_eq_true, inductionHypothesis, List.isPrefixOf_iff_prefix,
        List.infix_cons_iff]

end SourceCritic.Text
