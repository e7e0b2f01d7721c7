import SourceCritic.Proofs.Pattern.Runs
import SourceCritic.Proofs.Pattern.Starts

/-!
# Lines between breaks

For a pattern, a text is divided into lines at every `"\r\n"`, `'\n'` and `'\r'`, while
`Text.lines` divides it at every `'\n'` only.  Here these lines are found by reading the text
from its beginning, each of them with the place where it starts.  A line starts and stops exactly
where the anchors of a pattern say so.
-/

namespace SourceCritic

namespace Text

/-- A line without the break behind it, and the number of characters before it. -/
structure Line where
  start : Nat
  content : List Char
  deriving DecidableEq, Repr

def Line.stop (line : Line) : Nat :=
  line.start + line.content.length

theorem Line.start_le_stop (line : Line) : line.start ≤ line.stop :=
  Nat.le_add_right _ _

/-- The lines of a text that stands behind a number of characters. -/
def brokenLinesFrom : (start : Nat) → (text : List Char) → List Line
  | start, [] => [{ start := start, content := [] }]
  | start, '\r' :: '\n' :: rest =>
      { start := start, content := [] } :: brokenLinesFrom (start + 2) rest
  | start, head :: rest =>
      if isLineBreak head then
        { start := start, content := [] } :: brokenLinesFrom (start + 1) rest
      else
        match brokenLinesFrom (start + 1) rest with
        | [] => []
        | line :: later => { start := start, content := head :: line.content } :: later

def brokenLines (text : List Char) : List Line :=
  brokenLinesFrom 0 text

/-! ## The order of lines -/

private theorem exists_brokenLinesFrom_eq_cons (start : Nat) (text : List Char) :
    ∃ content later,
      brokenLinesFrom start text = { start := start, content := content } :: later := by
  fun_induction brokenLinesFrom start text with
  | case1 start => exact ⟨[], [], rfl⟩
  | case2 start rest _ => exact ⟨[], _, rfl⟩
  | case3 start head rest _ _ _ => exact ⟨[], _, rfl⟩
  | case4 start head rest _ _ nothing inductionHypothesis =>
      obtain ⟨content, later, shape⟩ := inductionHypothesis
      rw [nothing] at shape
      cases shape
  | case5 start head rest _ _ line later _ _ => exact ⟨_, later, rfl⟩

private theorem start_of_brokenLinesFrom_eq_cons
    {start : Nat} {text : List Char} {line : Line} {later : List Line}
    (shape : brokenLinesFrom start text = line :: later) :
    line.start = start := by
  obtain ⟨content, others, known⟩ := exists_brokenLinesFrom_eq_cons start text
  rw [shape] at known
  injection known with isFirst _
  rw [isFirst]

/-- Every line stops before the next one starts. -/
theorem pairwise_brokenLinesFrom (start : Nat) (text : List Char) :
    (brokenLinesFrom start text).Pairwise fun first second => first.stop < second.start := by
  have reached :
      ∀ {start : Nat} {text : List Char} {line : Line},
        (brokenLinesFrom start text).Pairwise (fun first second => first.stop < second.start) →
          line ∈ brokenLinesFrom start text → start ≤ line.start := by
    intro start text line ordered member
    obtain ⟨content, later, shape⟩ := exists_brokenLinesFrom_eq_cons start text
    rw [shape] at ordered member
    rcases List.mem_cons.mp member with isFirst | isLater
    · rw [isFirst]
    · have behind := (List.pairwise_cons.mp ordered).1 line isLater
      simp only [Line.stop] at behind
      omega
  fun_induction brokenLinesFrom start text with
  | case1 start => exact List.pairwise_singleton _ _
  | case2 start rest inductionHypothesis =>
      refine List.pairwise_cons.mpr ⟨?_, inductionHypothesis⟩
      intro line member
      have behind := reached inductionHypothesis member
      simp only [Line.stop, List.length_nil]
      omega
  | case3 start head rest _ _ inductionHypothesis =>
      refine List.pairwise_cons.mpr ⟨?_, inductionHypothesis⟩
      intro line member
      have behind := reached inductionHypothesis member
      simp only [Line.stop, List.length_nil]
      omega
  | case4 start head rest _ _ _ _ => exact List.Pairwise.nil
  | case5 start head rest _ _ line later shape inductionHypothesis =>
      have first := start_of_brokenLinesFrom_eq_cons shape
      rw [shape, List.pairwise_cons] at inductionHypothesis
      refine List.pairwise_cons.mpr ⟨?_, inductionHypothesis.2⟩
      intro other member
      have behind := inductionHypothesis.1 other member
      simp only [Line.stop, List.length_cons] at behind ⊢
      omega

section FirstLine

variable {start : Nat} {text : List Char} {first : Line} {later : List Line}
  (shape : brokenLinesFrom start text = first :: later)

include shape

private theorem lt_start_of_mem_later {line : Line} (isLater : line ∈ later) :
    start < line.start := by
  have ordered := pairwise_brokenLinesFrom start text
  rw [shape] at ordered
  have behind := (List.pairwise_cons.mp ordered).1 line isLater
  rw [← start_of_brokenLinesFrom_eq_cons shape]
  exact Nat.lt_of_le_of_lt first.start_le_stop behind

private theorem mem_later_iff {line : Line} :
    line ∈ later ↔ line ∈ brokenLinesFrom start text ∧ start < line.start := by
  rw [shape, List.mem_cons]
  constructor
  · intro isLater
    exact ⟨Or.inr isLater, lt_start_of_mem_later shape isLater⟩
  · rintro ⟨isFirst | isLater, behind⟩
    · rw [isFirst, start_of_brokenLinesFrom_eq_cons shape] at behind
      exact absurd behind (Nat.lt_irrefl _)
    · exact isLater

private theorem eq_first_iff {content : List Char} :
    { start := start, content := content } = first ↔
      { start := start, content := content } ∈ brokenLinesFrom start text := by
  rw [shape, List.mem_cons]
  constructor
  · exact Or.inl
  · intro found
    rcases found with isFirst | isLater
    · exact isFirst
    · exact absurd (lt_start_of_mem_later shape isLater) (Nat.lt_irrefl _)

end FirstLine

/-! ## Where lines stand -/

/-- A line stands behind one text and in front of another one. -/
structure IsLine (before content after : List Char) : Prop where
  covered : CharClass.inLine.Covers content
  started : Anchor.lineStart.holds before.getLast? (content ++ after).head? = true
  stopped : CharClass.inLine.Stops after

/-- Text that is put in front of a line matters only if it touches the line. -/
theorem isLine_append_iff
    (front : List Char) {before content after : List Char}
    (touched :
      before = [] → Anchor.lineStart.holds front.getLast? (content ++ after).head? = true) :
    IsLine (front ++ before) content after ↔ IsLine before content after := by
  rcases List.eq_nil_or_concat before with rfl | ⟨beginning, last, rfl⟩
  · have started := touched rfl
    rw [← List.append_nil front] at started
    constructor
    · intro isLine
      exact ⟨isLine.covered, rfl, isLine.stopped⟩
    · intro isLine
      exact ⟨isLine.covered, started, isLine.stopped⟩
  · have sameLast :
        (front ++ beginning.concat last).getLast? = (beginning.concat last).getLast? := by
      simp
    constructor
    · intro isLine
      have started := isLine.started
      rw [sameLast] at started
      exact ⟨isLine.covered, started, isLine.stopped⟩
    · intro isLine
      have started := isLine.started
      rw [← sameLast] at started
      exact ⟨isLine.covered, started, isLine.stopped⟩

/-- No line starts behind a character that does not break lines. -/
private theorem not_isLine_singleton
    {head : Char} (inLine : isLineBreak head = false) (content after : List Char) :
    ¬ IsLine [head] content after := by
  intro isLine
  have breaks := CharClass.lineBreak_of_lineStart isLine.started
  simp [CharClass.contains, inLine] at breaks

/-- In front of a break, there is nothing left of a line. -/
private theorem IsLine.eq_nil_of_break
    {content after rest : List Char} {head : Char}
    (isLine : IsLine [] content after) (breaks : isLineBreak head = true)
    (division : head :: rest = content ++ after) :
    content = [] := by
  cases content with
  | nil => rfl
  | cons first later =>
      injection division with same _
      have inLine := isLine.covered first (by simp)
      rw [← same] at inLine
      simp [CharClass.contains, breaks] at inLine

private theorem IsLine.exists_cons_of_inLine
    {content after rest : List Char} {head : Char}
    (isLine : IsLine [] content after) (inLine : isLineBreak head = false)
    (division : head :: rest = content ++ after) :
    ∃ later, content = head :: later ∧ rest = later ++ after := by
  cases content with
  | nil =>
      have stopped := isLine.stopped
      rw [List.nil_append] at division
      rw [← division, CharClass.stops_cons_iff] at stopped
      simp [CharClass.contains, inLine] at stopped
  | cons first later =>
      injection division with same remaining
      exact ⟨later, by rw [same], remaining⟩

/-- The places of the lines of a text that stands behind a number of characters. -/
def Stands (start : Nat) (text : List Char) (line : Line) : Prop :=
  ∃ before after,
    text = before ++ (line.content ++ after) ∧ line.start = start + before.length ∧
      IsLine before line.content after

/-- Behind a break, the text goes on with a line of its own.  `undivided` says that the break has no
line within it. -/
private theorem stands_break_iff
    (front : List Char) {rest : List Char} {start : Nat} {line : Line}
    (started : Anchor.lineStart.holds front.getLast? rest.head? = true)
    (broken : CharClass.inLine.Stops (front ++ rest))
    (undivided :
      ∀ {before content after : List Char},
        front ++ rest = before ++ (content ++ after) → IsLine before content after →
          (before = [] ∧ content = []) ∨ ∃ later, before = front ++ later) :
    Stands start (front ++ rest) line ↔
      line = { start := start, content := [] } ∨ Stands (start + front.length) rest line := by
  constructor
  · rintro ⟨before, after, division, place, isLine⟩
    rcases undivided division isLine with ⟨rfl, empty⟩ | ⟨later, rfl⟩
    · left
      cases line
      simp only [List.length_nil, Nat.add_zero] at place empty
      rw [place, empty]
    · right
      rw [List.append_assoc, List.append_cancel_left_eq] at division
      rw [List.length_append, ← Nat.add_assoc] at place
      refine ⟨later, after, division, place, (isLine_append_iff front ?_).mp isLine⟩
      rintro rfl
      rw [division] at started
      exact started
  · rintro (rfl | ⟨before, after, rfl, place, isLine⟩)
    · exact ⟨[], _, rfl, rfl, CharClass.covers_nil _, rfl, broken⟩
    · refine
        ⟨front ++ before, after, (List.append_assoc _ _ _).symm, ?_,
          (isLine_append_iff front ?_).mpr isLine⟩
      · rw [place, List.length_append, Nat.add_assoc]
      · rintro rfl
        exact started

private theorem stands_return_iff {start : Nat} {rest : List Char} {line : Line} :
    Stands start ('\r' :: '\n' :: rest) line ↔
      line = { start := start, content := [] } ∨ Stands (start + 2) rest line := by
  refine stands_break_iff ['\r', '\n'] ?_ ?_ ?_
  · rfl
  · exact (CharClass.stops_cons_iff _ _ _).mpr (by decide)
  · intro before content after division isLine
    cases before with
    | nil => exact Or.inl ⟨rfl, isLine.eq_nil_of_break (by decide) division⟩
    | cons first between =>
        injection division with same remaining
        cases between with
        | nil =>
            have started : Anchor.lineStart.holds (some first) (content ++ after).head? = true :=
              isLine.started
            change '\n' :: rest = content ++ after at remaining
            rw [← remaining, ← same, List.head?_cons] at started
            exact absurd started (by decide)
        | cons second later =>
            injection remaining with sameNext _
            exact Or.inr ⟨later, by rw [← same, ← sameNext]; rfl⟩

private theorem stands_cons_iff_of_break
    {start : Nat} {head : Char} {rest : List Char} {line : Line}
    (breaks : isLineBreak head = true) (alone : head = '\r' → rest.head? ≠ some '\n') :
    Stands start (head :: rest) line ↔
      line = { start := start, content := [] } ∨ Stands (start + 1) rest line := by
  have outside : CharClass.inLine.contains head = false := by
    simp [CharClass.contains, breaks]
  refine stands_break_iff [head] ?_ ?_ ?_
  · apply (Anchor.lineStart_holds_iff _ _).mpr
    simpa [outside] using alone
  · exact (CharClass.stops_cons_iff _ _ _).mpr outside
  · intro before content after division isLine
    cases before with
    | nil => exact Or.inl ⟨rfl, isLine.eq_nil_of_break breaks division⟩
    | cons first later =>
        injection division with same _
        exact Or.inr ⟨later, by rw [same]; rfl⟩

/-- A line of the text behind a character that does not break lines is the rest of the first line,
or one that stands behind it. -/
private theorem stands_cons_iff_of_inLine
    {start : Nat} {head : Char} {rest : List Char} {line : Line}
    (inLine : isLineBreak head = false) :
    Stands start (head :: rest) line ↔
      (∃ content,
        line = { start := start, content := head :: content } ∧
          Stands (start + 1) rest { start := start + 1, content := content }) ∨
        (start + 1 < line.start ∧ Stands (start + 1) rest line) := by
  have belongs : CharClass.inLine.contains head = true := by
    simp [CharClass.contains, inLine]
  constructor
  · rintro ⟨before, after, division, place, isLine⟩
    cases before with
    | nil =>
        left
        obtain ⟨content, shape, remaining⟩ := isLine.exists_cons_of_inLine inLine division
        have covered := isLine.covered
        rw [shape, CharClass.covers_cons_iff] at covered
        refine ⟨content, ?_, [], after, remaining, rfl, covered.2, rfl, isLine.stopped⟩
        cases line
        simp only [List.length_nil, Nat.add_zero] at place shape
        rw [place, shape]
    | cons first between =>
        injection division with same remaining
        cases between with
        | nil =>
            rw [← same] at isLine
            exact absurd isLine (not_isLine_singleton inLine _ _)
        | cons second later =>
            right
            have behind : line.start = start + 1 + (second :: later).length := by
              rw [place]
              simp only [List.length_cons]
              omega
            refine ⟨?_, second :: later, after, remaining, behind, ?_⟩
            · rw [List.length_cons] at behind
              omega
            · exact (isLine_append_iff [first] (by simp)).mp isLine
  · rintro (⟨content, rfl, before, after, division, place, isLine⟩ |
      ⟨behind, before, after, division, place, isLine⟩)
    · have empty : before = [] := by
        apply List.eq_nil_of_length_eq_zero
        simp only at place
        omega
      subst empty
      refine ⟨[], after, by rw [division]; rfl, rfl, ?_, rfl, isLine.stopped⟩
      exact (CharClass.covers_cons_iff _ _ _).mpr ⟨belongs, isLine.covered⟩
    · have nonempty : before ≠ [] := by
        rintro rfl
        simp only [List.length_nil] at place
        omega
      refine ⟨head :: before, after, by rw [division]; rfl, ?_, ?_⟩
      · rw [place, List.length_cons]
        omega
      · exact (isLine_append_iff [head] fun empty => absurd empty nonempty).mpr isLine

/-- The lines of a text are found by reading it from its beginning. -/
theorem mem_brokenLinesFrom_iff (start : Nat) (text : List Char) (line : Line) :
    line ∈ brokenLinesFrom start text ↔ Stands start text line := by
  fun_induction brokenLinesFrom start text generalizing line with
  | case1 start =>
      rw [List.mem_singleton]
      constructor
      · rintro rfl
        exact ⟨[], [], rfl, rfl, CharClass.covers_nil _, rfl, CharClass.stops_nil _⟩
      · rintro ⟨before, after, division, place, _⟩
        have empty := division.symm
        simp only [List.append_eq_nil_iff] at empty
        obtain ⟨rfl, noContent, _⟩ := empty
        cases line
        simp only [List.length_nil, Nat.add_zero] at place noContent
        rw [place, noContent]
  | case2 start rest inductionHypothesis =>
      rw [List.mem_cons, inductionHypothesis, stands_return_iff]
  | case3 start head rest alone breaks inductionHypothesis =>
      rw [List.mem_cons, inductionHypothesis, stands_cons_iff_of_break breaks]
      intro isReturn next
      obtain ⟨behind, shape⟩ := List.head?_eq_some_iff.mp next
      exact alone behind isReturn shape
  | case4 start head rest _ _ nothing _ =>
      obtain ⟨content, later, shape⟩ := exists_brokenLinesFrom_eq_cons (start + 1) rest
      rw [nothing] at shape
      cases shape
  | case5 start head rest _ inLine first later shape inductionHypothesis =>
      rw [stands_cons_iff_of_inLine (by simpa using inLine), List.mem_cons, mem_later_iff shape,
        inductionHypothesis, and_comm]
      apply or_congr_left
      constructor
      · intro isFirst
        refine ⟨first.content, isFirst, ?_⟩
        rw [← inductionHypothesis, ← eq_first_iff shape, ← start_of_brokenLinesFrom_eq_cons shape]
      · rintro ⟨content, same, stands⟩
        rw [← inductionHypothesis, ← eq_first_iff shape] at stands
        rw [same, ← stands]

/-- The lines of a text are all parts of it that stand as lines. -/
theorem mem_brokenLines_iff (text : List Char) (line : Line) :
    line ∈ brokenLines text ↔
      ∃ before after,
        text = before ++ (line.content ++ after) ∧ line.start = before.length ∧
          IsLine before line.content after := by
  simp only [brokenLines, mem_brokenLinesFrom_iff, Stands, Nat.zero_add]

/-- Two lines that reach each other are the same. -/
theorem eq_of_mem_brokenLines
    {text : List Char} {first second : Line}
    (firstMember : first ∈ brokenLines text) (secondMember : second ∈ brokenLines text)
    (firstReaches : second.start ≤ first.stop) (secondReaches : first.start ≤ second.stop) :
    first = second := by
  by_contra different
  rcases rel_or_rel_of_pairwise (pairwise_brokenLinesFrom 0 text) firstMember secondMember
    different with before | behind
  · exact absurd firstReaches (Nat.not_le.mpr before)
  · exact absurd secondReaches (Nat.not_le.mpr behind)

/-- No two lines end at the same place. -/
theorem eq_of_stop_eq
    {text : List Char} {first second : Line}
    (firstMember : first ∈ brokenLines text) (secondMember : second ∈ brokenLines text)
    (same : first.stop = second.stop) :
    first = second := by
  apply eq_of_mem_brokenLines firstMember secondMember
  · rw [same]
    exact second.start_le_stop
  · rw [← same]
    exact first.start_le_stop

theorem pairwise_stop_brokenLines (text : List Char) :
    (brokenLines text).Pairwise fun first second => first.stop < second.stop := by
  refine (pairwise_brokenLinesFrom 0 text).imp ?_
  intro first second before
  exact Nat.lt_of_lt_of_le before second.start_le_stop

/-! ## Lines and anchors -/

/-- The last character of a text that no line breaks in is not a part of a break. -/
private theorem getLast?_append_ne_return
    {before content : List Char} (covered : CharClass.inLine.Covers content)
    (nonempty : content ≠ []) :
    (before ++ content).getLast? ≠ some '\r' := by
  obtain ⟨front, last, rfl⟩ := (List.eq_nil_or_concat content).resolve_left nonempty
  intro isReturn
  have same : last = '\r' := by
    simpa using isReturn
  have inLine := covered last (by simp)
  rw [same] at inLine
  exact absurd inLine (by decide)

theorem IsLine.ended
    {before content after : List Char} (isLine : IsLine before content after) :
    Anchor.lineEnd.holds (before ++ content).getLast? after.head? = true := by
  refine (Anchor.lineEnd_holds_iff _ _).mpr ⟨isLine.stopped, ?_⟩
  by_cases empty : content = []
  · have started := isLine.started
    rw [empty, List.nil_append] at started
    rw [empty, List.append_nil]
    exact ((Anchor.lineStart_holds_iff _ _).mp started).2
  · intro isReturn
    exact absurd isReturn (getLast?_append_ne_return isLine.covered empty)

/-- Where a line may start, a line does start. -/
theorem exists_line_of_lineStart
    {before rest : List Char}
    (started : Anchor.lineStart.holds before.getLast? rest.head? = true) :
    ∃ line ∈ brokenLines (before ++ rest), line.start = before.length := by
  have divided :
      ∃ content after,
        rest = content ++ after ∧ CharClass.inLine.Covers content ∧
          CharClass.inLine.Stops after := by
    rcases CharClass.covers_or_exists_outside .inLine rest with
      covered | ⟨content, outside, after, division, covered, breaks⟩
    · exact ⟨rest, [], (List.append_nil rest).symm, covered, CharClass.stops_nil _⟩
    · have stopped := (CharClass.stops_cons_iff .inLine outside after).mpr breaks
      exact ⟨content, outside :: after, division, covered, stopped⟩
  obtain ⟨content, after, rfl, covered, stopped⟩ := divided
  refine ⟨{ start := before.length, content := content }, ?_, rfl⟩
  rw [mem_brokenLines_iff]
  exact ⟨before, after, rfl, rfl, covered, started, stopped⟩

/-- Where a line may end, a line does end. -/
theorem exists_line_of_lineEnd
    {before after : List Char}
    (ended : Anchor.lineEnd.holds before.getLast? after.head? = true) :
    ∃ line ∈ brokenLines (before ++ after), line.stop = before.length := by
  have divided :
      ∃ front content,
        before = front ++ content ∧ CharClass.inLine.Covers content ∧
          ∀ character ∈ front.getLast?, CharClass.inLine.contains character = false := by
    rcases CharClass.covers_or_exists_outside .inLine before.reverse with
      covered | ⟨content, outside, front, division, covered, breaks⟩
    · exact ⟨[], before, rfl, by simpa using covered.reverse, by simp⟩
    · refine ⟨front.reverse ++ [outside], content.reverse, ?_, covered.reverse, ?_⟩
      · simpa using congrArg List.reverse division
      · simpa using breaks
  obtain ⟨front, content, rfl, covered, broken⟩ := divided
  obtain ⟨stopped, undivided⟩ := (Anchor.lineEnd_holds_iff _ _).mp ended
  refine ⟨{ start := front.length, content := content }, ?_, by simp [Line.stop]⟩
  rw [mem_brokenLines_iff]
  refine ⟨front, after, List.append_assoc _ _ _, rfl, covered, ?_, stopped⟩
  refine (Anchor.lineStart_holds_iff _ _).mpr ⟨broken, ?_⟩
  cases content with
  | nil =>
      rw [List.append_nil] at undivided
      exact undivided
  | cons head rest =>
      intro _ isNewline
      have same : head = '\n' := by
        simpa using isNewline
      have inLine := covered head (by simp)
      rw [same] at inLine
      exact absurd inLine (by decide)

end Text

end SourceCritic
