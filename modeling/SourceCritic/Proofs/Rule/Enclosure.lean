import Mathlib
import SourceCritic.Proofs.Rule.Balance
import SourceCritic.Proofs.Rule.Sites

/-!
# Declarations within declarations

If a declaration stands within the body of another one, and no brace is closed before the first
brace of either of them is opened, then its body ends before the outer one does.  All its lines
and all its branches are lines and branches of the outer declaration as well: a branch word that
stands alone in the inner body stands alone in the outer one, because the inner body begins with
another word and ends in front of a brace.  So a declaration is never reported without the one
around it, which is reported earlier and is graded no better.
-/

namespace SourceCritic.Rule.Functions

open Text (bytes bytes_append)

/-! ## Words within a part of a text -/

private theorem getLast?_take_behind
    (before text after : List Char) {start : Nat}
    (positive : 0 < start) (within : start ≤ text.length) :
    ((before ++ (text ++ after)).take (before.length + start)).getLast? =
      (text.take start).getLast? := by
  have taken : (before ++ (text ++ after)).take (before.length + start) =
      before ++ text.take start := by
    rw [List.take_length_add_append, List.take_append_of_le_length within]
  have nonempty : text.take start ≠ [] := by
    apply List.ne_nil_of_length_pos
    rw [List.length_take_of_le within]
    exact positive
  rw [taken, List.getLast?_append_of_ne_nil _ nonempty]

section WithinText

variable {word text after : List Char}
  (notFirst : isWholeWord word [] text = false)
  (edge : after.head?.any Text.isWordCharacter = false)

include notFirst edge

/-- A word that stands alone in a part of a text stands alone in the whole of it. -/
private theorem isWholeWord_within
    (before : List Char) {start : Nat} (within : start ≤ text.length)
    (alone : isWholeWord word (text.take start) (text.drop start) = true) :
    isWholeWord word ((before ++ (text ++ after)).take (before.length + start))
      ((before ++ (text ++ after)).drop (before.length + start)) = true := by
  have positive : 0 < start := by
    apply Nat.pos_of_ne_zero
    intro isZero
    rw [isZero, List.take_zero, List.drop_zero, notFirst] at alone
    cases alone
  have dropped :
      (before ++ (text ++ after)).drop (before.length + start) = text.drop start ++ after := by
    rw [List.drop_length_add_append, List.drop_append_of_le_length within]
  simp only [isWholeWord, Bool.and_eq_true, Bool.not_eq_true', List.isPrefixOf_iff_prefix]
    at alone ⊢
  obtain ⟨⟨⟨rest, shape⟩, noneBefore⟩, noneAfter⟩ := alone
  rw [getLast?_take_behind before text after positive within, dropped, ← shape,
    List.append_assoc, List.drop_left]
  rw [← shape, List.drop_left] at noneAfter
  refine ⟨⟨List.prefix_append _ _, noneBefore⟩, ?_⟩
  cases rest with
  | nil => exact edge
  | cons head later => exact noneAfter

/-- A text has all the words of its parts. -/
theorem wholeWordCount_within (before : List Char) :
    wholeWordCount word text ≤ wholeWordCount word (before ++ (text ++ after)) := by
  have places :
      (before ++ (text ++ after)).length + 1 =
        before.length + (text.length + 1) + after.length := by
    simp only [List.length_append]
    omega
  have starts :
      ((List.range (text.length + 1)).map (before.length + ·)).Sublist
        (List.range ((before ++ (text ++ after)).length + 1)) := by
    rw [places, List.range_add (n := before.length + (text.length + 1)),
      List.range_add (n := before.length)]
    exact (List.sublist_append_right _ _).trans (List.sublist_append_left _ _)
  apply Nat.le_trans _ starts.countP_le
  rw [wholeWordCount, List.countP_map]
  apply List.countP_mono_left
  intro start member alone
  have within : start ≤ text.length := Nat.le_of_lt_succ (List.mem_range.mp member)
  exact isWholeWord_within notFirst edge before within alone

end WithinText

/-- No word that begins a branch stands at the beginning of a declaration. -/
theorem isWholeWord_declaration
    {word : String} (member : word ∈ branchWords) (rest : List Char) :
    isWholeWord word.toList [] ("function".toList ++ rest) = false := by
  have differs :
      ∀ word ∈ branchWords,
        ∃ index, index < word.toList.length ∧ word.toList[index]? ≠ "function".toList[index]? ∧
          index < "function".toList.length := by
    decide
  obtain ⟨index, inWord, different, inFunction⟩ := differs word member
  rw [Bool.eq_false_iff]
  intro alone
  simp only [isWholeWord, Bool.and_eq_true, List.isPrefixOf_iff_prefix] at alone
  obtain ⟨⟨⟨later, shape⟩, _⟩, _⟩ := alone
  apply different
  have same := congrArg (fun text : List Char => text[index]?) shape
  simp only [List.getElem?_append_left inWord, List.getElem?_append_left inFunction] at same
  exact same

/-- A declaration within a body adds all its branches to those of the body. -/
theorem branchCount_within
    {body after : List Char} (before : List Char)
    (begins : ∃ rest, body = "function".toList ++ rest)
    (edge : after.head?.any Text.isWordCharacter = false) :
    branchCount body ≤ branchCount (before ++ (body ++ after)) := by
  obtain ⟨rest, rfl⟩ := begins
  unfold branchCount
  apply List.sum_le_sum
  intro word member
  exact wholeWordCount_within (isWholeWord_declaration member rest) edge before

/-! ## Bodies within bodies -/

/-- In front of its first opening brace, a declaration has no closing brace.  Its head reaches up to
the opening brace. -/
structure IsHeaded (text before head : List Char) : Prop where
  opened : ∃ rest, text = before ++ (head ++ '{' :: rest)
  noOpening : '{' ∉ head
  noClosing : '}' ∉ head

/-- A text reads as a declaration with a name behind `before`, be there a body or not. -/
def IsDeclared (text before name : List Char) : Prop :=
  ∃ gap secondGap rest,
    text = before ++ ("function".toList ++ (gap ++ (name ++ (secondGap ++ '(' :: rest)))) ∧
      gap ≠ [] ∧ CharClass.space.Covers gap ∧ name ≠ [] ∧
        CharClass.word.Covers name ∧ CharClass.space.Covers secondGap

/-- Between a brace and the one that closes it, a brace that is opened is closed, and the first
closing brace that does so is not the last one. -/
theorem IsClosed.exists_nested
    {rest inner front head tail : List Char}
    (closed : IsClosed rest inner)
    (noOpening : '{' ∉ head) (noClosing : '}' ∉ head)
    (shape : inner = front ++ (head ++ '{' :: tail))
    (after : List Char) :
    ∃ nested later,
      tail = nested ++ '}' :: later ∧
        body? (head ++ '{' :: (tail ++ after)) = some (head ++ '{' :: nested) := by
  -- The level in front of the inner brace is positive, so the inner brace is closed within.
  have positive : 0 < level ('{' :: front) := closed.positive front ⟨_, shape.symm⟩
  have fallen : level ('{' :: tail) ≤ 0 := by
    have balanced := closed.balanced
    rw [shape, ← List.cons_append, level_append,
      level_behind_first noOpening noClosing] at balanced
    omega
  cases found : body? (head ++ '{' :: (tail ++ after)) with
  | none =>
      have stays :=
        (body?_eq_none_iff_stays_open noOpening noClosing _).mp found tail
          (List.prefix_append _ _)
      omega
  | some body =>
      obtain ⟨nested, rfl, innerClosed⟩ :=
        (body?_eq_some_iff_isClosed noOpening noClosing _ _).mp found
      obtain ⟨behind, division⟩ := innerClosed.closing
      rcases List.append_eq_append_iff.mp division with
        ⟨between, nestedShape, _⟩ | ⟨between, tailShape, endShape⟩
      · have stillOpen := innerClosed.positive tail ⟨between, nestedShape.symm⟩
        omega
      · cases between with
        | nil =>
            have stillOpen := innerClosed.positive tail (by rw [tailShape, List.append_nil])
            omega
        | cons first later =>
            injection endShape with isClosing _
            rw [← isClosing] at tailShape
            exact ⟨nested, later, tailShape, rfl⟩

/-- A brace behind a head without closing braces is opened before the first one is closed. -/
private theorem exists_tail_of_noClosing
    {head rest front after : List Char} (noClosing : '}' ∉ head)
    (division : head ++ '{' :: rest = front ++ '}' :: after) :
    ∃ tail, front = head ++ '{' :: tail ∧ rest = tail ++ '}' :: after := by
  rcases List.append_eq_append_iff.mp division with
    ⟨between, shape, behind⟩ | ⟨between, shape, behind⟩
  · cases between with
    | nil => exact absurd (List.cons.inj behind).1 (by decide)
    | cons first tail =>
        injection behind with isOpening remaining
        rw [← isOpening] at shape
        exact ⟨tail, shape, remaining⟩
  · cases between with
    | nil => exact absurd (List.cons.inj behind).1 (by decide)
    | cons first tail =>
        injection behind with isClosing _
        rw [← isClosing] at shape
        rw [shape] at noClosing
        exact absurd (List.mem_append_right front List.mem_cons_self) noClosing

/-- The body of one declaration holds the whole of another one, up to the brace that ends it. -/
def Site.Encloses (outer inner : Site) : Prop :=
  ∃ between later,
    inner.before = outer.before ++ between ∧
      outer.body = between ++ (inner.body ++ '}' :: later)

/-- The byte of the brace that ends the body of a declaration. -/
def Site.stop (site : Site) : Nat :=
  (bytes (site.before ++ site.body)).length

/-- A declaration within the body of another one has a body that ends before the outer one does. -/
theorem exists_enclosed
    {text : List Char} {outer : Site} (isIn : outer.IsIn text)
    {head : List Char} (headed : IsHeaded text outer.before head)
    {before name innerHead : List Char} (declared : IsDeclared text before name)
    (innerHeaded : IsHeaded text before innerHead)
    (behindBrace : (bytes (outer.before ++ head)).length < (bytes before).length)
    (inBody : (bytes before).length < outer.stop) :
    ∃ inner : Site,
      (inner.before = before ∧ inner.name = name) ∧ inner.IsIn text ∧ outer.Encloses inner := by
  obtain ⟨rest, textShape⟩ := headed.opened
  obtain ⟨innerRest, innerShape⟩ := innerHeaded.opened
  have isBody := isIn.bodied
  rw [textShape, List.drop_left,
    body?_eq_some_iff_isClosed headed.noOpening headed.noClosing] at isBody
  obtain ⟨inner, bodyShape, closed⟩ := isBody
  obtain ⟨after, restShape⟩ := closed.closing
  -- The inner declaration begins behind the first brace of the outer one ...
  have opening : (bytes (outer.before ++ head ++ ['{'])).length ≤ (bytes before).length := by
    rw [bytes_append, List.length_append, Text.bytes_cons_of_isAscii (by decide), Text.bytes_nil,
      List.length_singleton]
    omega
  have division :
      (outer.before ++ head ++ ['{']) ++ rest = before ++ (innerHead ++ '{' :: innerRest) := by
    rw [← innerShape, textShape]
    simp
  obtain ⟨front, beforeShape, afterFront⟩ := Text.exists_of_length_bytes_le division opening
  -- ... and in front of the brace that closes it.
  have closing : (bytes front).length < (bytes inner).length := by
    rw [Site.stop, beforeShape, bodyShape] at inBody
    simp only [bytes_append, List.length_append,
      Text.bytes_cons_of_isAscii (by decide : Text.IsAscii '{'), List.length_cons,
      Text.bytes_nil, List.length_nil] at inBody
    omega
  obtain ⟨remaining, innerDivision, afterRemaining⟩ :=
    Text.exists_of_length_bytes_le (afterFront.symm.trans restShape) (Nat.le_of_lt closing)
  obtain ⟨tail, remainingShape, innerRestShape⟩ :=
    exists_tail_of_noClosing innerHeaded.noClosing afterRemaining
  rw [remainingShape] at innerDivision
  obtain ⟨nested, later, tailShape, found⟩ :=
    closed.exists_nested innerHeaded.noOpening innerHeaded.noClosing innerDivision
      ('}' :: after)
  have isBody : body? (text.drop before.length) = some (innerHead ++ '{' :: nested) := by
    rw [innerShape, List.drop_left, innerRestShape]
    exact found
  refine
    ⟨{ before := before, name := name, body := innerHead ++ '{' :: nested }, ⟨rfl, rfl⟩,
      ⟨declared, isBody⟩, head ++ '{' :: front, later, ?_, ?_⟩
  · rw [beforeShape]
    simp
  · rw [bodyShape, innerDivision, tailShape]
    simp

/-! ## Measures and grades -/

/-- A body holds a brace, so it holds the whole of a word that stands at its beginning. -/
private theorem exists_of_body?_word
    {word more body : List Char} (noOpening : '{' ∉ word)
    (found : body? (word ++ more) = some body) :
    ∃ rest, body = word ++ rest := by
  obtain ⟨after, division, closed, _⟩ := (body?_eq_some_iff _ _).mp found
  have hasBrace : '{' ∈ body := mem_of_level_eq_one closed
  rcases List.append_eq_append_iff.mp division with ⟨rest, shape, _⟩ | ⟨rest, shape, _⟩
  · exact ⟨rest, shape⟩
  · rw [shape] at noOpening
    exact absurd (List.mem_append_left rest hasBrace) noOpening

namespace Site

theorem IsIn.begins
    {text : List Char} {site : Site} (isIn : site.IsIn text) :
    ∃ rest, site.body = "function".toList ++ rest := by
  obtain ⟨_, _, _, shape, _⟩ := isIn.declared
  have found := isIn.bodied
  rw [shape, List.drop_left] at found
  exact exists_of_body?_word (by decide) found

namespace Encloses

variable {outer inner : Site} (encloses : outer.Encloses inner)

include encloses

theorem stop_lt : inner.stop < outer.stop := by
  obtain ⟨between, later, beforeShape, bodyShape⟩ := encloses
  rw [stop, stop, beforeShape, bodyShape]
  simp only [bytes_append, bytes_closing, List.length_append, List.length_cons]
  omega

theorem lines_le : inner.lines ≤ outer.lines := by
  obtain ⟨between, later, _, bodyShape⟩ := encloses
  rw [lines, lines, bodyShape]
  simp only [List.count_append]
  omega

theorem branches_le {text : List Char} (isIn : inner.IsIn text) :
    inner.branches ≤ outer.branches := by
  obtain ⟨between, later, _, bodyShape⟩ := encloses
  have edge : ('}' :: later).head?.any Text.isWordCharacter = false := by
    rw [List.head?_cons]
    decide
  rw [branches, branches, bodyShape]
  exact Nat.add_le_add_left (branchCount_within between isIn.begins edge) 1

end Encloses

theorem severity_violation (path : String) (site : Site) :
    (site.violation path).severity = site.grade := by
  rw [violation]

section Grades

variable {site other : Site}
  (fewerBranches : site.branches ≤ other.branches) (fewerLines : site.lines ≤ other.lines)

include fewerBranches fewerLines

/-- A declaration around one that is too complex is too complex itself. -/
theorem IsComplex.mono (complex : site.IsComplex) : other.IsComplex := by
  unfold IsComplex at complex ⊢
  omega

/-- The grade of the outer declaration is no better. -/
theorem grade_mono : site.grade ≤ other.grade := by
  by_cases harsh : 15 < site.branches ∨ 80 < site.lines
  · have otherHarsh : 15 < other.branches ∨ 80 < other.lines := by
      omega
    rw [grade, grade, if_pos harsh, if_pos otherHarsh]
    decide
  · rw [grade, grade, if_neg harsh]
    split <;> decide

end Grades

end Site

/-- Two declarations that are reported stand in the report in the order of the text. -/
theorem exists_order_of_mem_reported
    {text : List Char} {outer inner : Site}
    (outerReported : outer ∈ reported text) (innerReported : inner ∈ reported text)
    (earlier : outer.start < inner.start) :
    ∃ front middle back, reported text = front ++ outer :: (middle ++ inner :: back) := by
  obtain ⟨front, rest, division⟩ := List.append_of_mem outerReported
  have ordered := pairwise_start_reported text
  rw [division] at ordered innerReported
  rcases List.mem_append.mp innerReported with inFront | inRest
  · have later := (List.pairwise_append.mp ordered).2.2 inner inFront outer List.mem_cons_self
    omega
  · have notOuter : inner ≠ outer := by
      intro same
      rw [same] at earlier
      exact Nat.lt_irrefl _ earlier
    obtain ⟨middle, back, restShape⟩ :=
      List.append_of_mem ((List.mem_cons.mp inRest).resolve_left notOuter)
    exact ⟨front, middle, back, by rw [division, restShape]⟩

/-- A declaration within the body of another one, both of them without a closing brace in front of
their first opening brace, has a body that ends earlier, and no more branches and lines than the
outer one.  If it is reported, then the outer one is reported earlier and graded no better. -/
theorem check_reports_enclosing
    {text : List Char} {outer : Site} (isIn : outer.IsIn text)
    {head : List Char} (headed : IsHeaded text outer.before head)
    {before name innerHead : List Char} (declared : IsDeclared text before name)
    (innerHeaded : IsHeaded text before innerHead)
    (behindBrace : (bytes (outer.before ++ head)).length < (bytes before).length)
    (inBody : (bytes before).length < outer.stop)
    (path : String) :
    ∃ inner : Site,
      (inner.before = before ∧ inner.name = name) ∧ inner.IsIn text ∧
        inner.stop < outer.stop ∧ inner.branches ≤ outer.branches ∧ inner.lines ≤ outer.lines ∧
          check path text = (reported text).map (Site.violation path) ∧
            (inner ∈ reported text →
              (inner.violation path).severity ≤ (outer.violation path).severity ∧
                ∃ front middle back,
                  reported text = front ++ outer :: (middle ++ inner :: back)) := by
  obtain ⟨inner, named, innerIsIn, encloses⟩ :=
    exists_enclosed isIn headed declared innerHeaded behindBrace inBody
  have fewerBranches := encloses.branches_le innerIsIn
  have fewerLines := encloses.lines_le
  refine
    ⟨inner, named, innerIsIn, encloses.stop_lt, fewerBranches, fewerLines,
      check_eq_map_reported path text, ?_⟩
  intro innerReported
  have innerComplex := ((mem_reported_iff _ _).mp innerReported).2
  have outerReported : outer ∈ reported text :=
    (mem_reported_iff _ _).mpr ⟨isIn, innerComplex.mono fewerBranches fewerLines⟩
  have earlier : outer.start < inner.start := by
    rw [bytes_append, List.length_append] at behindBrace
    rw [Site.start, Site.start, named.1]
    omega
  rw [Site.severity_violation, Site.severity_violation]
  exact
    ⟨Site.grade_mono fewerBranches fewerLines,
      exists_order_of_mem_reported outerReported innerReported earlier⟩

/-! ## A function around another one -/

/-- Five branches and a function around ten more branches. -/
def wrapper : Site where
  before := "é".toList
  name := "a".toList
  body := "function a()\x7bif if if if if function b()\x7bif if if if if if if if if if \x7d".toList

/-- The function within. -/
def wrapped : Site where
  before := "éfunction a()\x7bif if if if if ".toList
  name := "b".toList
  body := "function b()\x7bif if if if if if if if if if ".toList

/-- A text that is made of the outer function and the brace that ends it. -/
def wrapperText : List Char :=
  wrapper.before ++ wrapper.body ++ ['}']

private theorem isIn_wrapper : wrapper.IsIn wrapperText :=
  ⟨⟨[' '], [], wrapperText.drop 12, by decide⟩, by decide⟩

private theorem isIn_wrapped : wrapped.IsIn wrapperText :=
  ⟨⟨[' '], [], wrapperText.drop 40, by decide⟩, by decide⟩

/-- Both functions are reported, the outer one first. -/
theorem check_reports_enclosing_wrapper :
    wrapper.IsIn wrapperText ∧ wrapped ∈ reported wrapperText ∧
      wrapped.branches = 11 ∧ wrapper.branches = 16 ∧
        (wrapped.violation "a.js").severity ≤ (wrapper.violation "a.js").severity ∧
          ∃ front middle back,
            reported wrapperText = front ++ wrapper :: (middle ++ wrapped :: back) := by
  have innerBranches : wrapped.branches = 11 := by
    decide +kernel
  have outerBranches : wrapper.branches = 16 := by
    decide +kernel
  have complex : wrapped.IsComplex := by
    rw [Site.IsComplex, innerBranches]
    decide
  have isReported : wrapped ∈ reported wrapperText :=
    (mem_reported_iff _ _).mpr ⟨isIn_wrapped, complex⟩
  have headed : IsHeaded wrapperText wrapper.before "function a()".toList :=
    ⟨⟨wrapperText.drop 14, by decide⟩, by decide, by decide⟩
  have innerHeaded : IsHeaded wrapperText wrapped.before "function b()".toList :=
    ⟨⟨wrapperText.drop 42, by decide⟩, by decide, by decide⟩
  have behindBrace :
      (bytes (wrapper.before ++ "function a()".toList)).length <
        (bytes wrapped.before).length := by
    rw [Text.bytes_eq_flatMap, Text.bytes_eq_flatMap]
    decide
  have inBody : (bytes wrapped.before).length < wrapper.stop := by
    rw [Site.stop, Text.bytes_eq_flatMap, Text.bytes_eq_flatMap]
    decide
  obtain ⟨inner, ⟨sameBefore, _⟩, innerIsIn, _, _, _, _, whenReported⟩ :=
    check_reports_enclosing isIn_wrapper headed isIn_wrapped.declared innerHeaded behindBrace inBody
      "a.js"
  have same : inner = wrapped :=
    isIn_wrapped.eq innerIsIn (by rw [sameBefore])
  rw [same] at whenReported
  exact ⟨isIn_wrapper, isReported, innerBranches, outerBranches, whenReported isReported⟩

end SourceCritic.Rule.Functions
