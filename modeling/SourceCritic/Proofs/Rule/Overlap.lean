import SourceCritic.Proofs.Rule.Framing

/-!
# Overlapping matches

How two matches of one pattern can overlap.  A declaration never overlaps another one.  An import
statement or a call of `require` may hold another one, but then it might as well have stopped where
the inner one does.  So the scan never takes fewer of them than there are side by side.
-/

namespace SourceCritic.Rule

open CharClass

/-- A word that does not repeat its first character cannot begin again before it has ended. -/
private theorem prefix_of_word_again
    {head : Char} {tail front more rest : List Char}
    (fresh : head ∉ tail)
    (nonempty : front ≠ [])
    (division : front ++ head :: more = head :: tail ++ rest) :
    ∃ between, front = head :: tail ++ between ∧ rest = between ++ head :: more := by
  rcases List.append_eq_append_iff.mp division with
    ⟨back, shape, remaining⟩ | ⟨between, shape, remaining⟩
  · cases back with
    | nil => exact ⟨[], by simpa using shape.symm, by simpa using remaining.symm⟩
    | cons first back =>
        rw [List.cons_append] at remaining
        injection remaining with same _
        obtain ⟨_, later, rfl⟩ := List.exists_cons_of_ne_nil nonempty
        rw [List.cons_append] at shape
        injection shape with _ sameTail
        rw [sameTail, ← same] at fresh
        simp at fresh
  · exact ⟨between, shape, remaining⟩

/-- If a text ends with a character, so does every part at its end that is not empty. -/
private theorem eq_nil_or_ends
    {front run between : List Char} {edge : Char}
    (division : front ++ [edge] = run ++ between) :
    between = [] ∨ ∃ later, between = later ++ [edge] := by
  rcases List.eq_nil_or_concat between with empty | ⟨later, last, rfl⟩
  · exact Or.inl empty
  · have same : last = edge := by
      simpa using (congrArg List.getLast? division).symm
    exact Or.inr ⟨later, by rw [same, List.concat_eq_append]⟩

/-! ## Calls of `require` -/

namespace Imports

/-- A call is its word, a quoted argument and a pair of parentheses. -/
theorem matches_call_iff (text : List Char) :
    Matches call.items text ↔
      ∃ gap opening argument closing,
        text = "require".toList ++ (gap ++ '(' :: opening :: (argument ++ [closing, ')'])) ∧
          CharClass.space.Covers gap ∧ CharClass.quote.contains opening = true ∧
            CharClass.inLine.Covers argument ∧ CharClass.quote.contains closing = true := by
  rw [call, matches_text_append_iff]
  simp only [matches_one_iff, matches_many_iff, matches_nil_iff]
  constructor
  · rintro ⟨_, rfl, gap, _, rfl, gapCovered, parenthesis, _, rfl, isParenthesis, opening, _, rfl,
      opens, argument, _, rfl, covered, closing, _, rfl, closes, last, _, rfl, isLast, rfl⟩
    simp only [CharClass.contains, decide_eq_true_eq] at isParenthesis isLast
    subst isParenthesis isLast
    exact ⟨gap, opening, argument, closing, rfl, gapCovered, opens, covered, closes⟩
  · rintro ⟨gap, opening, argument, closing, rfl, gapCovered, opens, covered, closes⟩
    exact
      ⟨_, rfl, gap, _, rfl, gapCovered, '(', _, rfl, by decide, opening, _, rfl, opens,
        argument, _, rfl, covered, closing, _, rfl, closes, ')', _, rfl, by decide, rfl⟩

private theorem exists_behind_require
    {front gap rest more : List Char}
    (gapCovered : CharClass.space.Covers gap)
    (nonempty : front ≠ [])
    (division :
      front ++ ("require".toList ++ more) = "require".toList ++ (gap ++ '(' :: rest)) :
    ∃ between,
      front = "require".toList ++ between ∧
        gap ++ '(' :: rest = between ++ ("require".toList ++ more) := by
  rcases List.append_eq_append_iff.mp division with
    ⟨back, shape, remaining⟩ | ⟨between, shape, remaining⟩
  · obtain ⟨head, front, rfl⟩ := List.exists_cons_of_ne_nil nonempty
    have shorter : back <:+ "equire".toList := by
      injection shape with _ sameTail
      exact ⟨front, sameTail.symm⟩
    simp [List.suffix_cons_iff] at shorter
    rcases shorter with rfl | rfl | rfl | rfl | rfl | rfl | rfl
    · simp at remaining
    · simp at remaining
    · simp at remaining
    · simp at remaining
    · -- Only the last two letters repeat the first ones, and no `q` follows them.
      have next : 'q' :: ("uire".toList ++ more) = gap ++ '(' :: rest := by
        simpa using remaining
      cases gap with
      | nil =>
          injection next with impossible _
          exact absurd impossible (by decide)
      | cons first gap =>
          injection next with same _
          rw [covers_cons_iff, ← same] at gapCovered
          exact absurd gapCovered.1 (by decide)
    · simp at remaining
    · exact ⟨[], by simpa using shape.symm, by simpa using remaining.symm⟩
  · exact ⟨between, shape, remaining⟩

/-- A call that begins within another one begins within its argument. -/
private theorem exists_in_argument
    {front gap rest more : List Char} {opening : Char}
    (gapCovered : CharClass.space.Covers gap)
    (opens : CharClass.quote.contains opening = true)
    (nonempty : front ≠ [])
    (division :
      front ++ ("require".toList ++ more) =
        "require".toList ++ (gap ++ '(' :: opening :: rest)) :
    ∃ between,
      front = "require".toList ++ (gap ++ '(' :: opening :: between) ∧
        rest = between ++ ("require".toList ++ more) := by
  obtain ⟨behindWord, rfl, afterWord⟩ := exists_behind_require gapCovered nonempty division
  obtain ⟨behindGap, rfl, afterGap⟩ := gapCovered.split_at_outside (by decide) afterWord
  cases behindGap with
  | nil =>
      injection afterGap with impossible _
      exact absurd impossible (by decide)
  | cons first behindGap =>
      injection afterGap with isParenthesis afterParenthesis
      subst isParenthesis
      cases behindGap with
      | nil =>
          injection afterParenthesis with same _
          rw [same] at opens
          exact absurd opens (by decide)
      | cons second between =>
          injection afterParenthesis with same remaining
          rw [same]
          exact ⟨between, rfl, remaining⟩

/-- A call can be ended by the quote and the parenthesis of a call that begins within it. -/
theorem isOrderly_call : call.IsOrderly := by
  refine .of_nested ?_
  intro before front inner back after nonempty spans innerSpans
  obtain ⟨gap, opening, argument, closing, division, gapCovered, opens, covered, closes⟩ :=
    (matches_call_iff _).mp spans.1
  obtain ⟨innerGap, innerOpening, innerArgument, innerClosing, rfl, _, _, _, innerCloses⟩ :=
    (matches_call_iff inner).mp innerSpans.1
  rw [List.append_assoc] at division
  obtain ⟨between, rfl, remaining⟩ := exists_in_argument gapCovered opens nonempty division
  have inLine : CharClass.inLine.Covers (argument ++ [closing, ')']) := by
    have closingInLine := contains_inLine_of_not_space (isDisjoint_quote_space _ closes)
    simp only [covers_append_iff, covers_cons_iff, covers_nil, and_true]
    exact ⟨covered, closingInLine, by decide⟩
  rw [remaining] at inLine
  simp only [covers_append_iff, covers_cons_iff] at inLine
  obtain ⟨betweenCovered, wordCovered, ⟨gapInLine, parenthesis, quote, argumentCovered, _⟩, _⟩ :=
    inLine
  refine ⟨(matches_call_iff _).mpr ?_, rfl, rfl⟩
  refine
    ⟨gap, opening,
      between ++ ("require".toList ++ (innerGap ++ '(' :: innerOpening :: innerArgument)),
      innerClosing, ?_, gapCovered, opens, ?_, innerCloses⟩
  · simp only [List.append_assoc, List.cons_append]
  · simp only [covers_append_iff, covers_cons_iff]
    exact ⟨betweenCovered, wordCovered, gapInLine, parenthesis, quote, argumentCovered⟩

/-! ## Import statements -/

private theorem covers_inLine_import : CharClass.inLine.Covers "import".toList := by
  decide

/-- A line that begins within a clause begins with white space or with the quoted name, and not with
a word. -/
private theorem not_word_after_lineBreak
    {clause gap name front more : List Char} {edge head : Char}
    (clauseCovered : CharClass.inLine.Covers clause)
    (gapCovered : CharClass.space.Covers gap)
    (quoted : IsQuotedName name)
    (breaks : CharClass.inLine.contains edge = false)
    (isWord : CharClass.word.contains head = true)
    (division : clause ++ ("from".toList ++ (gap ++ name)) = front ++ edge :: head :: more) :
    False := by
  have wordsCovered : CharClass.inLine.Covers (clause ++ "from".toList) :=
    (covers_append_iff _ _ _).mpr ⟨clauseCovered, covers_inLine_from⟩
  rw [← List.append_assoc] at division
  obtain ⟨behindWords, rfl, afterWords⟩ := wordsCovered.split_at_outside breaks division
  have regrouped : gap ++ name = (behindWords ++ [edge]) ++ head :: more := by
    rw [afterWords]
    simp
  obtain ⟨behindGap, sameGap, rfl⟩ :=
    gapCovered.split_at_outside (isDisjoint_word_space head isWord) regrouped
  rcases eq_nil_or_ends sameGap with rfl | ⟨later, rfl⟩
  · obtain ⟨first, rest, same, isQuote⟩ := quoted.first
    injection same with sameHead _
    have cases : first = '\'' ∨ first = '"' := by
      simpa [CharClass.contains] using isQuote
    rw [sameHead] at isWord
    rcases cases with rfl | rfl <;> exact absurd isWord (by decide)
  · have inLine := quoted.inLine edge (by simp)
    rw [breaks] at inLine
    cases inLine

/-- A line within a statement that begins with a word begins with the clause. -/
theorem front_eq_of_line_within
    {front gap clause more : List Char} {edge head : Char}
    (gapCovered : CharClass.space.Covers gap)
    (matching : Matches clauseItems clause)
    (breaks : CharClass.inLine.contains edge = false)
    (isWord : CharClass.word.contains head = true)
    (division : front ++ edge :: head :: more = "import".toList ++ (gap ++ clause)) :
    front ++ [edge] = "import".toList ++ gap := by
  obtain ⟨behindWord, rfl, afterWord⟩ :=
    covers_inLine_import.split_at_outside breaks division.symm
  have regrouped : gap ++ clause = (behindWord ++ [edge]) ++ head :: more := by
    rw [afterWord]
    simp
  obtain ⟨behindGap, sameGap, rfl⟩ :=
    gapCovered.split_at_outside (isDisjoint_word_space head isWord) regrouped
  rcases eq_nil_or_ends sameGap with rfl | ⟨later, rfl⟩
  · rw [List.append_assoc, sameGap, List.append_nil]
  · obtain ⟨words, secondGap, name, clauseShape, wordsCovered, _, secondGapCovered, quoted⟩ :=
      exists_shape_of_matches_clauseItems matching
    rw [List.append_assoc] at clauseShape
    exact
      (not_word_after_lineBreak wordsCovered secondGapCovered quoted breaks isWord
        clauseShape.symm).elim

/-- If a clause begins with the word `import` and white space, then that white space stays on its
line, because the word `from` does. -/
theorem covers_inLine_of_import_in_clause
    {clause gap more : List Char}
    (matching : Matches clauseItems clause)
    (gapCovered : CharClass.space.Covers gap)
    (division : clause = "import".toList ++ (gap ++ more)) :
    CharClass.inLine.Covers gap := by
  rcases covers_or_exists_outside .inLine gap with
    inLine | ⟨front, broken, back, rfl, _, breaks⟩
  · exact inLine
  · exfalso
    obtain ⟨words, secondGap, name, rfl, wordsCovered, _, _, _⟩ :=
      exists_shape_of_matches_clauseItems matching
    have firstLine : CharClass.inLine.Covers (words ++ "from".toList) :=
      (covers_append_iff _ _ _).mpr ⟨wordsCovered, covers_inLine_from⟩
    have regrouped :
        (words ++ "from".toList) ++ (secondGap ++ name) =
          ("import".toList ++ front) ++ broken :: (back ++ more) := by
      simpa only [List.append_assoc, List.cons_append] using division
    obtain ⟨between, same, _⟩ := firstLine.split_at_outside breaks regrouped
    have member : 'f' ∈ "import".toList ++ front := by
      rw [same]
      simp
    rcases List.mem_append.mp member with inWord | inGap
    · exact absurd inWord (by decide)
    · exact absurd (gapCovered 'f' (List.mem_append_left _ inGap)) (by decide)

private theorem matches_statement_of_inner
    {gap innerGap innerClause : List Char}
    (nonempty : gap ≠ [])
    (gapCovered : CharClass.space.Covers gap)
    (innerGapInLine : CharClass.inLine.Covers innerGap)
    (matching : Matches clauseItems innerClause) :
    Matches statement.items
      ("import".toList ++ (gap ++ ("import".toList ++ (innerGap ++ innerClause)))) := by
  have wordsCovered : CharClass.inLine.Covers ("import".toList ++ innerGap) :=
    (covers_append_iff _ _ _).mpr ⟨covers_inLine_import, innerGapInLine⟩
  rw [items_statement, matches_text_append_iff]
  refine ⟨_, rfl, ?_⟩
  rw [matches_one_many_iff]
  refine ⟨gap, _, rfl, nonempty, gapCovered, ?_⟩
  rw [← List.append_assoc]
  exact Matches.run_append wordsCovered matching

/-- A statement may stop where a statement within it stops. -/
theorem isOrderly_statement : statement.IsOrderly := by
  refine .of_nested ?_
  intro before front inner back after nonempty spans innerSpans
  obtain ⟨gap, clause, division, gapNonempty, gapCovered, matching⟩ :=
    exists_shape_of_matches_statement spans.1
  obtain ⟨innerGap, innerClause, rfl, _, innerGapCovered, innerMatching⟩ :=
    exists_shape_of_matches_statement innerSpans.1
  obtain ⟨innerOpened, innerEnded⟩ := innerSpans.2
  have frontShape : front = "import".toList ++ gap := by
    obtain ⟨start, edge, rfl⟩ := (List.eq_nil_or_concat front).resolve_left nonempty
    rw [List.concat_eq_append] at division innerOpened ⊢
    have breaks : CharClass.inLine.contains edge = false := by
      rw [← List.append_assoc, List.getLast?_concat] at innerOpened
      exact lineBreak_of_lineStart innerOpened
    have regrouped :
        start ++ edge :: 'i' :: ("mport".toList ++ (innerGap ++ innerClause) ++ back) =
          "import".toList ++ (gap ++ clause) := by
      simpa using division
    exact front_eq_of_line_within gapCovered matching breaks (by decide) regrouped
  subst frontShape
  have clauseShape : clause = "import".toList ++ (innerGap ++ (innerClause ++ back)) := by
    simpa using division.symm
  have innerGapInLine := covers_inLine_of_import_in_clause matching innerGapCovered clauseShape
  refine ⟨?_, ?_, ?_⟩
  · rw [List.append_assoc]
    exact matches_statement_of_inner gapNonempty gapCovered innerGapInLine innerMatching
  · simpa using spans.2.1
  · rw [← List.append_assoc]
    exact innerEnded

end Imports

/-! ## Declarations -/

namespace Functions

/-- If two words with white space between them stand in a text that begins with one word and a
parenthesis, then they stand behind the parenthesis. -/
theorem prefix_of_two_words
    {name gap before word between more after : List Char} {next : Char}
    (nameCovered : CharClass.word.Covers name)
    (gapCovered : CharClass.space.Covers gap)
    (wordCovered : CharClass.word.Covers word)
    (nonempty : between ≠ [])
    (betweenCovered : CharClass.space.Covers between)
    (isWord : CharClass.word.contains next = true)
    (division :
      name ++ (gap ++ '(' :: after) = before ++ (word ++ (between ++ next :: more))) :
    name ++ (gap ++ ['(']) <+: before := by
  obtain ⟨space, spaces, rfl⟩ := List.exists_cons_of_ne_nil nonempty
  have notWord : CharClass.word.contains space = false :=
    isDisjoint_word_space.symm space (betweenCovered space (by simp))
  -- The first word ends within or in front of the two words ...
  rw [List.cons_append, ← List.append_assoc before] at division
  obtain ⟨behindName, sameName, afterName⟩ := nameCovered.split_at_outside notWord division
  -- ... and its white space in front of the second of them, which is no parenthesis.
  rw [← List.cons_append, ← List.append_assoc] at afterName
  obtain ⟨behindGap, sameGap, afterGap⟩ :=
    gapCovered.split_at_outside (isDisjoint_word_space next isWord) afterName
  cases behindGap with
  | nil =>
      injection afterGap with same _
      rw [← same] at isWord
      exact absurd isWord (by decide)
  | cons parenthesis behind =>
      injection afterGap with same _
      rw [← same] at sameGap
      have reached :
          before ++ (word ++ space :: spaces) = name ++ (gap ++ ['(']) ++ behind := by
        rw [← List.append_assoc, sameName, List.append_assoc, sameGap]
        simp
      rcases List.append_eq_append_iff.mp reached with
        ⟨rest, shape, remaining⟩ | ⟨rest, shape, _⟩
      · rw [← List.append_assoc] at shape
        rcases eq_nil_or_ends shape with rfl | ⟨front, rfl⟩
        · rw [List.append_nil, List.append_assoc] at shape
          exact ⟨[], by rw [shape, List.append_nil]⟩
        · exfalso
          have member : '(' ∈ word ++ space :: spaces := by
            rw [remaining]
            simp
          rcases List.mem_append.mp member with inWord | inBetween
          · exact absurd (wordCovered '(' inWord) (by decide)
          · exact absurd (betweenCovered '(' inBetween) (by decide)
      · exact ⟨rest, shape.symm⟩

/-- A declaration begins only behind another one that begins earlier. -/
theorem isApart_declaration : declaration.IsApart := by
  refine .of_matches ?_
  intro matched after front inner rest matching innerMatching nonempty division
  obtain ⟨gap, name, secondGap, rfl, _, gapCovered, _, nameCovered, secondGapCovered⟩ :=
    exists_shape_of_matches_declaration matching
  obtain ⟨innerGap, innerName, innerSecondGap, rfl, innerGapNonempty, innerGapCovered,
      innerNameNonempty, innerNameCovered, _⟩ :=
    exists_shape_of_matches_declaration innerMatching
  obtain ⟨head, later, rfl⟩ := List.exists_cons_of_ne_nil innerNameNonempty
  have wordCovered : CharClass.word.Covers "function".toList := by
    decide
  simp only [List.append_assoc, List.cons_append, List.nil_append] at division
  obtain ⟨behindWord, rfl, afterWord⟩ :=
    prefix_of_word_again (by decide : 'f' ∉ "unction".toList) nonempty division
  obtain ⟨behindGap, rfl, afterGap⟩ := gapCovered.split_at_outside (by decide) afterWord
  obtain ⟨between, rfl⟩ :=
    prefix_of_two_words nameCovered secondGapCovered wordCovered innerGapNonempty
      innerGapCovered (innerNameCovered head (by simp)) afterGap
  exact ⟨between, by simp⟩

end Functions

end SourceCritic.Rule
