import SourceCritic.Proofs.Pattern.Runs
import SourceCritic.Proofs.Pattern.Scan
import SourceCritic.Rule

/-!
# Scanning for the patterns of the rules

The rules look for import statements, calls of `require`, declared functions, inline objects and
inline functions.  The patterns for them mix repetitions that take as much as they can with
repetitions that take as little as they can.  None of these preferences matters: every scan takes
the span that starts first and, of those, the one that stops first.

For the import statement this is so because a statement ends where its line ends, and because its
last word `from` decides which line that is.  In the other patterns every repetition gives way to
the item behind it, or closes with a brace or a parenthesis.
-/

namespace SourceCritic.Rule

open CharClass

private theorem not_matches_text_append_nil
    {expected : String} {items : List Item} (nonempty : expected.toList ≠ []) :
    ¬ Matches (Item.text expected ++ items) [] := by
  rw [matches_text_append_iff]
  rintro ⟨rest, division, _⟩
  exact nonempty (List.append_eq_nil_iff.mp division.symm).1

/-! ## Import statements -/

namespace Imports

/-- The items of a statement behind its first word and the white space there. -/
def clauseItems : List Item :=
  .many .shortest .inLine ::
    (Item.text "from" ++
      [.one .space, .many .longest .space, .one .quote, .many .shortest .inLine, .one .quote,
        .optional (.literal ';')])

theorem items_statement :
    statement.items =
      Item.text "import" ++ .one .space :: .many .longest .space :: clauseItems :=
  rfl

/-- A quoted name at the end of a statement, with or without a semicolon. -/
structure IsQuotedName (text : List Char) : Prop where
  inLine : CharClass.inLine.Covers text
  first : ∃ head rest, text = head :: rest ∧ CharClass.quote.contains head = true
  final :
    ∃ front edge, text = front ++ [edge] ∧ (CharClass.quote.contains edge = true ∨ edge = ';')

/-- A clause stands on one line up to the quoted name and the word in front of it. -/
theorem exists_shape_of_matches_clauseItems
    {text : List Char} (matching : Matches clauseItems text) :
    ∃ clause gap name,
      text = clause ++ ("from".toList ++ (gap ++ name)) ∧
        CharClass.inLine.Covers clause ∧ gap ≠ [] ∧ CharClass.space.Covers gap ∧
          IsQuotedName name := by
  rw [clauseItems, matches_many_iff] at matching
  obtain ⟨clause, _, rfl, clauseCovered, matching⟩ := matching
  rw [matches_text_append_iff] at matching
  obtain ⟨_, rfl, matching⟩ := matching
  rw [matches_one_many_iff] at matching
  obtain ⟨gap, name, rfl, nonempty, gapCovered, matching⟩ := matching
  refine ⟨clause, gap, name, rfl, clauseCovered, nonempty, gapCovered, ?_⟩
  rw [matches_one_iff] at matching
  obtain ⟨opening, _, rfl, opens, matching⟩ := matching
  rw [matches_many_iff] at matching
  obtain ⟨quoted, _, rfl, quotedCovered, matching⟩ := matching
  rw [matches_one_iff] at matching
  obtain ⟨closing, ending, rfl, closes, matching⟩ := matching
  have openingInLine := contains_inLine_of_not_space (isDisjoint_quote_space _ opens)
  have closingInLine := contains_inLine_of_not_space (isDisjoint_quote_space _ closes)
  rw [matches_optional_iff, matches_nil_iff] at matching
  rcases matching with rfl | ⟨semicolon, _, rfl, isSemicolon, empty⟩
  · refine ⟨?_, ⟨opening, _, rfl, opens⟩, ⟨opening :: quoted, closing, rfl, Or.inl closes⟩⟩
    simp [openingInLine, quotedCovered, closingInLine]
  · rw [(matches_nil_iff _).mp empty]
    have same : semicolon = ';' := by
      simpa [CharClass.contains] using isSemicolon
    subst same
    have semicolonInLine : CharClass.inLine.contains ';' = true := by
      decide
    refine
      ⟨?_, ⟨opening, _, rfl, opens⟩,
        ⟨opening :: quoted ++ [closing], ';', by simp, Or.inr rfl⟩⟩
    simp [openingInLine, quotedCovered, closingInLine, semicolonInLine]

theorem IsQuotedName.edge_ne
    {front : List Char} {edge : Char} {name : List Char}
    (quoted : IsQuotedName name) (shape : name = front ++ [edge]) :
    edge ≠ 'm' ∧ CharClass.space.contains edge = false := by
  obtain ⟨otherFront, otherEdge, otherShape, kind⟩ := quoted.final
  rw [shape] at otherShape
  have same : edge = otherEdge := by
    simpa using congrArg List.getLast? otherShape
  rw [same]
  rcases kind with quote | rfl
  · refine ⟨?_, isDisjoint_quote_space _ quote⟩
    rintro rfl
    exact absurd quote (by decide)
  · decide

/-- A line that ends with a quoted name does not end with the word `from` and white space. -/
theorem IsQuotedName.not_from_at_end
    {name front clause gap : List Char}
    (quoted : IsQuotedName name)
    (covered : CharClass.space.Covers gap)
    (division : front ++ name = clause ++ ("from".toList ++ gap)) :
    False := by
  obtain ⟨start, edge, rfl, _⟩ := quoted.final
  have solid := quoted.edge_ne rfl
  rcases List.eq_nil_or_concat gap with rfl | ⟨gapFront, gapEdge, rfl⟩
  · have same : edge = 'm' := by
      simpa using congrArg List.getLast? division
    exact solid.1 same
  · have ends := congrArg List.getLast? division
    simp only [List.concat_eq_append, ← List.append_assoc, List.getLast?_concat,
      Option.some.injEq] at ends
    have inGap := covered gapEdge (by simp)
    rw [← ends, solid.2] at inGap
    cases inGap

theorem covers_inLine_from : CharClass.inLine.Covers "from".toList := by
  decide

/-- The first line of a clause is the whole of it, or it breaks in the white space behind the word
`from`, which then is the last word of the line. -/
theorem exists_first_line
    {clause gap name after : List Char}
    (clauseCovered : CharClass.inLine.Covers clause)
    (gapCovered : CharClass.space.Covers gap)
    (quoted : IsQuotedName name)
    (stops : CharClass.inLine.Stops after) :
    ∃ line rest,
      clause ++ ("from".toList ++ (gap ++ name)) ++ after = line ++ rest ∧
        CharClass.inLine.Covers line ∧ CharClass.inLine.Stops rest ∧
          (line = clause ++ ("from".toList ++ (gap ++ name)) ∨
            ∃ lineGap,
              line = clause ++ ("from".toList ++ lineGap) ∧
                CharClass.space.Covers lineGap) := by
  rcases covers_or_exists_outside .inLine gap with
    gapInLine | ⟨lineGap, broken, gapRest, rfl, gapInLine, breaks⟩
  · refine ⟨_, after, rfl, ?_, stops, Or.inl rfl⟩
    simp only [covers_append_iff]
    exact ⟨clauseCovered, covers_inLine_from, gapInLine, quoted.inLine⟩
  · rw [covers_append_iff] at gapCovered
    refine
      ⟨clause ++ ("from".toList ++ lineGap), broken :: (gapRest ++ name ++ after), ?_, ?_,
        (stops_cons_iff _ _ _).mpr breaks, Or.inr ⟨lineGap, rfl, gapCovered.1⟩⟩
    · simp only [List.append_assoc, List.cons_append]
    · simp only [covers_append_iff]
      exact ⟨clauseCovered, covers_inLine_from, gapInLine⟩

private theorem same_gap_and_name
    {gap name after otherGap otherName rest : List Char}
    (gapCovered : CharClass.space.Covers gap)
    (otherGapCovered : CharClass.space.Covers otherGap)
    (quoted : IsQuotedName name)
    (otherQuoted : IsQuotedName otherName)
    (stops : CharClass.inLine.Stops after)
    (otherStops : CharClass.inLine.Stops rest)
    (division : gap ++ (name ++ after) = otherGap ++ (otherName ++ rest)) :
    gap = otherGap ∧ name = otherName := by
  have solid :
      ∀ {name after : List Char}, IsQuotedName name → CharClass.space.Stops (name ++ after) := by
    intro name after quotedName
    obtain ⟨head, rest, rfl, isQuote⟩ := quotedName.first
    rw [List.cons_append, stops_cons_iff]
    exact isDisjoint_quote_space _ isQuote
  obtain ⟨sameGap, sameRest⟩ :=
    gapCovered.append_inj otherGapCovered (solid quoted) (solid otherQuoted) division
  exact
    ⟨sameGap,
      (quoted.inLine.append_inj otherQuoted.inLine stops otherStops sameRest).1⟩

/-- A clause can be laid over a text in one way only. -/
theorem clause_unique
    (previous : Option Char) (matched after other rest : List Char)
    (fits : Fits .lineEnd clauseItems previous matched after)
    (otherFits : Fits .lineEnd clauseItems previous other rest)
    (division : matched ++ after = other ++ rest) :
    matched = other := by
  have stops := stops_inLine_of_lineEnd fits.2
  have otherStops := stops_inLine_of_lineEnd otherFits.2
  obtain ⟨clause, gap, name, rfl, clauseCovered, _, gapCovered, quoted⟩ :=
    exists_shape_of_matches_clauseItems fits.1
  obtain ⟨otherClause, otherGap, otherName, rfl, otherClauseCovered, _, otherGapCovered,
      otherQuoted⟩ :=
    exists_shape_of_matches_clauseItems otherFits.1
  obtain ⟨line, lineRest, lineDivision, covered, lineStops, kind⟩ :=
    exists_first_line clauseCovered gapCovered quoted stops
  obtain ⟨otherLine, otherLineRest, otherDivision, otherCovered, otherLineStops, otherKind⟩ :=
    exists_first_line otherClauseCovered otherGapCovered otherQuoted otherStops
  have sameLine : line = otherLine := by
    rw [lineDivision, otherDivision] at division
    exact (covered.append_inj otherCovered lineStops otherLineStops division).1
  rcases kind with whole | ⟨lineGap, broken, lineGapCovered⟩ <;>
    rcases otherKind with otherWhole | ⟨otherLineGap, otherBroken, otherLineGapCovered⟩
  · rw [← whole, ← otherWhole, sameLine]
  · have ends :
        (clause ++ ("from".toList ++ gap)) ++ name =
          otherClause ++ ("from".toList ++ otherLineGap) := by
      rw [← otherBroken, ← sameLine, whole]
      simp only [List.append_assoc]
    exact (quoted.not_from_at_end otherLineGapCovered ends).elim
  · have ends :
        (otherClause ++ ("from".toList ++ otherGap)) ++ otherName =
          clause ++ ("from".toList ++ lineGap) := by
      rw [← broken, sameLine, otherWhole]
      simp only [List.append_assoc]
    exact (otherQuoted.not_from_at_end lineGapCovered ends).elim
  · have sameWords :
        clause ++ "from".toList = otherClause ++ "from".toList := by
      have shape :
          (clause ++ ['f', 'r', 'o']) ++ 'm' :: lineGap =
            (otherClause ++ ['f', 'r', 'o']) ++ 'm' :: otherLineGap := by
        simpa using broken.symm.trans (sameLine.trans otherBroken)
      simpa using
        (lineGapCovered.append_inj_right otherLineGapCovered
          (by decide) (by decide) shape).1
    have remaining :
        gap ++ (name ++ after) = otherGap ++ (otherName ++ rest) := by
      simp only [← List.append_assoc] at division
      rw [sameWords] at division
      simpa only [List.append_assoc, List.append_cancel_left_eq] using division
    obtain ⟨rfl, rfl⟩ :=
      same_gap_and_name gapCovered otherGapCovered quoted otherQuoted stops otherStops remaining
    rw [← List.append_assoc, sameWords, List.append_assoc]

/-- A statement ends at the first name that it can end with. -/
theorem isImpartial_statement : statement.IsImpartial := by
  have givesWay : GivesWay .space clauseItems :=
    GivesWay.many .shortest (GivesWay.one (isDisjoint_literal (by decide)))
  have shortest : PrefersShortest .lineEnd clauseItems :=
    .of_unique clause_unique
  constructor
  · rw [items_statement]
    exact not_matches_text_append_nil (by decide)
  · rw [items_statement]
    exact .text "import" (.one .space (.longest givesWay shortest))

/-! ## Calls of `require` -/

private theorem closesWith_parenthesis :
    ClosesWith ')' [.one .quote, .one (.literal ')')] := by
  have shape :
      ∀ {text : List Char}, Matches [.one .quote, .one (.literal ')')] text →
        ∃ quote, text = [quote, ')'] := by
    intro text matching
    simp only [matches_one_iff, matches_nil_iff] at matching
    obtain ⟨quote, _, rfl, _, closing, _, rfl, closes, rfl⟩ := matching
    exact ⟨quote, by simpa [CharClass.contains] using closes⟩
  constructor
  · intro matched matching
    obtain ⟨quote, rfl⟩ := shape matching
    simp
  · intro head rest matching
    obtain ⟨quote, equality⟩ := shape matching
    injection equality with _ sameRest
    exact ⟨rest, [], by simp, by simp [sameRest], matching⟩

/-- A call ends at the first quote and parenthesis behind its argument. -/
theorem isImpartial_call : call.IsImpartial := by
  have closing : PrefersShortest .anywhere [.one .quote, .one (.literal ')')] :=
    .one .quote (.one (.literal ')') (prefersShortest_nil .anywhere))
  refine ⟨not_matches_text_append_nil (by decide), ?_⟩
  exact
    .text "require"
      (.longest (.one (isDisjoint_literal (by decide)))
        (.one (.literal '(') (.one .quote (.shortest closesWith_parenthesis closing))))

end Imports

/-! ## Declared functions -/

theorem Functions.isImpartial_declaration : Functions.declaration.IsImpartial := by
  have parenthesis : PrefersShortest .anywhere [.one (.literal '(')] :=
    .one (.literal '(') (prefersShortest_nil .anywhere)
  have afterName :
      PrefersShortest .anywhere [.many .longest .space, .one (.literal '(')] :=
    .longest (.one (isDisjoint_literal (by decide))) parenthesis
  have givesWay : GivesWay .word [.many .longest .space, .one (.literal '(')] :=
    .many .longest (.one (isDisjoint_literal (by decide)))
  refine ⟨not_matches_text_append_nil (by decide), ?_⟩
  exact
    .text "function"
      (.one .space
        (.longest (.one isDisjoint_word_space) (.one .word (.longest givesWay afterName))))

/-! ## Creation in place -/

namespace Inline.Creation

private theorem not_mem_of_covers_space
    {gap : List Char} (covered : CharClass.space.Covers gap) : '}' ∉ gap :=
  (isDisjoint_literal (by decide : CharClass.space.contains '}' = false)).not_mem_of_covers
    (by decide : (CharClass.literal '}').contains '}' = true) covered

/-- The end of an inline object: two closing braces with white space between them. -/
theorem closesWith_object :
    ClosesWith '}' [.one (.literal '}'), .many .longest .space, .one (.literal '}')] := by
  have shape :
      ∀ {text : List Char},
        Matches [.one (.literal '}'), .many .longest .space, .one (.literal '}')] text →
          ∃ gap, text = '}' :: (gap ++ ['}']) ∧ CharClass.space.Covers gap := by
    intro text matching
    simp only [matches_one_iff, matches_many_iff, matches_nil_iff] at matching
    obtain ⟨first, _, rfl, isFirst, gap, _, rfl, covered, second, _, rfl, isSecond, rfl⟩ :=
      matching
    have sameFirst : first = '}' := by
      simpa [CharClass.contains] using isFirst
    have sameSecond : second = '}' := by
      simpa [CharClass.contains] using isSecond
    exact ⟨gap, by rw [sameFirst, sameSecond], covered⟩
  constructor
  · intro matched matching
    obtain ⟨gap, rfl, _⟩ := shape matching
    simp
  · intro head rest matching
    obtain ⟨gap, equality, covered⟩ := shape matching
    injection equality with _ sameRest
    refine ⟨rest, [], by simp, ?_, matching⟩
    rw [sameRest, List.dropLast_concat]
    exact not_mem_of_covers_space covered

/-- An object ends at the first pair of closing braces. -/
theorem isImpartial_object : Creation.object.pattern.IsImpartial := by
  have brace : PrefersShortest .anywhere [.one (.literal '}')] :=
    .one (.literal '}') (prefersShortest_nil .anywhere)
  have closing :
      PrefersShortest .anywhere
        [.one (.literal '}'), .many .longest .space, .one (.literal '}')] :=
    .one (.literal '}') (.longest (.one (isDisjoint_literal (by decide))) brace)
  refine ⟨not_matches_one_nil _ _, ?_⟩
  exact
    .one (.literal '{')
      (.longest (.one (isDisjoint_literal (by decide)))
        (.one (.literal '{') (.shortest closesWith_object closing)))

/-- The items of an inline function behind its parameters. -/
def arrowItems : List Item :=
  [.one (.literal ')'), .many .longest .space, .one (.literal '='), .one (.literal '>'),
    .many .longest .space, .many .shortest .inLine, .one (.literal '}')]

/-- Behind its parameters, an inline function has an arrow and a result up to a brace. -/
theorem matches_arrowItems_iff (text : List Char) :
    Matches arrowItems text ↔
      ∃ firstGap secondGap result,
        text = ')' :: (firstGap ++ ('=' :: '>' :: (secondGap ++ (result ++ ['}'])))) ∧
          CharClass.space.Covers firstGap ∧ CharClass.space.Covers secondGap ∧
            CharClass.inLine.Covers result := by
  simp only [arrowItems, matches_one_iff, matches_many_iff, matches_nil_iff]
  constructor
  · rintro ⟨closing, _, rfl, isClosing, firstGap, _, rfl, firstCovered, equals, _, rfl, isEquals,
      greater, _, rfl, isGreater, secondGap, _, rfl, secondCovered, result, _, rfl, covered,
      brace, _, rfl, isBrace, rfl⟩
    simp only [CharClass.contains, decide_eq_true_eq] at isClosing isEquals isGreater isBrace
    subst isClosing isEquals isGreater isBrace
    exact ⟨firstGap, secondGap, result, rfl, firstCovered, secondCovered, covered⟩
  · rintro ⟨firstGap, secondGap, result, rfl, firstCovered, secondCovered, covered⟩
    exact
      ⟨')', _, rfl, by decide, firstGap, _, rfl, firstCovered, '=', _, rfl, by decide,
        '>', _, rfl, by decide, secondGap, _, rfl, secondCovered, result, _, rfl, covered,
        '}', _, rfl, by decide, rfl⟩

private theorem closesWith_arrowItems : ClosesWith '}' arrowItems := by
  constructor
  · intro matched matching
    obtain ⟨firstGap, secondGap, result, rfl, _⟩ := (matches_arrowItems_iff matched).mp matching
    simp
  · intro head rest matching
    obtain ⟨firstGap, secondGap, result, equality, firstCovered, secondCovered, covered⟩ :=
      (matches_arrowItems_iff (head :: rest)).mp matching
    injection equality with sameHead sameRest
    -- The match may be cut off behind the first closing brace of its result.
    obtain ⟨front, back, division, absent⟩ :=
      List.eq_append_cons_of_mem (List.mem_append_right result (List.mem_singleton.mpr rfl) :
        '}' ∈ result ++ ['}'])
    have frontCovered : CharClass.inLine.Covers front := by
      intro character member
      have found : character ∈ result ++ ['}'] := by
        rw [division]
        exact List.mem_append_left _ member
      rcases List.mem_append.mp found with inResult | isBrace
      · exact covered character inResult
      · rw [List.mem_singleton.mp isBrace]
        decide
    refine
      ⟨firstGap ++ ('=' :: '>' :: (secondGap ++ (front ++ ['}']))), back, ?_, ?_, ?_⟩
    · rw [sameRest, division]
      simp
    · rw [show firstGap ++ ('=' :: '>' :: (secondGap ++ (front ++ ['}']))) =
          (firstGap ++ ('=' :: '>' :: (secondGap ++ front))) ++ ['}'] by simp,
        List.dropLast_concat]
      simp only [List.mem_append, List.mem_cons, not_or]
      exact
        ⟨not_mem_of_covers_space firstCovered, by decide, by decide,
          not_mem_of_covers_space secondCovered, absent⟩
    · rw [matches_arrowItems_iff, sameHead]
      exact ⟨firstGap, secondGap, front, rfl, firstCovered, secondCovered, frontCovered⟩

private theorem closesWith_brace : ClosesWith '}' [.one (.literal '}')] := by
  have shape :
      ∀ {text : List Char}, Matches [.one (.literal '}')] text → text = ['}'] := by
    intro text matching
    simp only [matches_one_iff, matches_nil_iff] at matching
    obtain ⟨brace, _, rfl, isBrace, rfl⟩ := matching
    simpa [CharClass.contains] using isBrace
  constructor
  · intro matched matching
    rw [shape matching]
    exact List.mem_singleton.mpr rfl
  · intro head rest matching
    have equality := shape matching
    injection equality with _ sameRest
    exact ⟨rest, [], by simp, by simp [sameRest], matching⟩

/-- An inline function ends at the first closing brace behind its arrow. -/
theorem isImpartial_function : Creation.function.pattern.IsImpartial := by
  have brace : PrefersShortest .anywhere [.one (.literal '}')] :=
    .one (.literal '}') (prefersShortest_nil .anywhere)
  have givesWay : GivesWay .space [.many .shortest .inLine, .one (.literal '}')] :=
    .many .shortest (.one (isDisjoint_literal (by decide)))
  have arrow : PrefersShortest .anywhere arrowItems :=
    .one (.literal ')')
      (.longest (.one (isDisjoint_literal (by decide)))
        (.one (.literal '=')
          (.one (.literal '>') (.longest givesWay (.shortest closesWith_brace brace)))))
  refine ⟨not_matches_one_nil _ _, ?_⟩
  exact
    .one (.literal '{')
      (.longest (.one (isDisjoint_literal (by decide)))
        (.one (.literal '(') (.shortest closesWith_arrowItems arrow)))

end Inline.Creation

/-! ## All scans -/

/-- The patterns that the rules scan a text for. -/
def scannedPatterns : List Pattern :=
  [Imports.statement, Imports.call, Functions.declaration, Inline.Creation.object.pattern,
    Inline.Creation.function.pattern]

theorem isImpartial_of_mem_scannedPatterns
    {pattern : Pattern} (scanned : pattern ∈ scannedPatterns) :
    pattern.IsImpartial := by
  simp only [scannedPatterns, List.mem_cons, List.not_mem_nil, or_false] at scanned
  rcases scanned with rfl | rfl | rfl | rfl | rfl
  · exact Imports.isImpartial_statement
  · exact Imports.isImpartial_call
  · exact Functions.isImpartial_declaration
  · exact Inline.Creation.isImpartial_object
  · exact Inline.Creation.isImpartial_function

/-- Every scan of a rule is the scan without preferences: its spans are the ones found by always
taking the span that starts first and, of those, the one that stops first.  Each occurrence
carries the number of its line and the text from its start on. -/
theorem occurrences_leftmost_shortest
    {pattern : Pattern} (scanned : pattern ∈ scannedPatterns) (text : List Char) :
    (∀ spans,
      pattern.LeftmostShortest text 0 spans ↔
        spans = (pattern.occurrences text).map Occurrence.span) ∧
      ∀ occurrence ∈ pattern.occurrences text,
        occurrence.place = Text.Place.behind (text.take occurrence.place.offset) ∧
          occurrence.tail = text.drop occurrence.place.offset := by
  have impartial := isImpartial_of_mem_scannedPatterns scanned
  constructor
  · intro spans
    constructor
    · intro scan
      exact scan.unique (impartial.leftmostShortest_occurrences text)
    · rintro rfl
      exact impartial.leftmostShortest_occurrences text
  · intro occurrence member
    rw [impartial.occurrences_eq_map_ofSpan text] at member
    obtain ⟨span, _, rfl⟩ := List.mem_map.mp member
    exact Occurrence.place_tail_ofSpan text span

/-- Neither the brace that is left over nor the inner pair of braces leads to another span. -/
theorem occurrences_leftmost_shortest_braces :
    Inline.Creation.object.pattern ∈ scannedPatterns ∧
      Inline.Creation.object.pattern.LeftmostShortest
        "\x7b \x7b\x7ba\x7d\n\x7d \x7d \x7b\x7b\x7d\x7d".toList 0 [(0, 8), (11, 15)] :=
  ⟨by decide, ((occurrences_leftmost_shortest (by decide) _).1 _).mpr (by decide)⟩

end SourceCritic.Rule
