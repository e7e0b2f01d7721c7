import SourceCritic.Proofs.Pattern.Respacing
import SourceCritic.Proofs.Rule.Scanning

/-!
# White space in the patterns of the rules

Everything that a rule looks for begins and ends with a character that is not white space, and
white space within it may be exchanged for other white space as long as lines still end where
they did.  The same is true of the words that begin a branch.
-/

namespace SourceCritic.Rule

open CharClass

theorem isDisjoint_inLine_lineBreak :
    ∀ tested, Text.isLineBreak tested = true → CharClass.inLine.contains tested = false := by
  intro tested breaks
  simp [CharClass.contains, breaks]

private theorem isDisjoint_word_lineBreak :
    ∀ tested, Text.isLineBreak tested = true → CharClass.word.contains tested = false := by
  intro tested breaks
  exact isDisjoint_word_space.symm tested (contains_space_of_isLineBreak breaks)

/-! ## Imports -/

namespace Imports

/-- A statement begins with its word and white space, and all else is its clause. -/
theorem exists_shape_of_matches_statement
    {text : List Char} (matching : Matches statement.items text) :
    ∃ gap clause,
      text = "import".toList ++ (gap ++ clause) ∧ gap ≠ [] ∧ CharClass.space.Covers gap ∧
        Matches clauseItems clause := by
  rw [items_statement, matches_text_append_iff] at matching
  obtain ⟨_, rfl, matching⟩ := matching
  rw [matches_one_many_iff] at matching
  obtain ⟨gap, clause, rfl, nonempty, covered, matching⟩ := matching
  exact ⟨gap, clause, rfl, nonempty, covered, matching⟩

/-- A statement neither begins nor ends with white space. -/
theorem isFramed_statement : statement.IsFramed := by
  constructor
  · intro matched matching
    obtain ⟨gap, clause, rfl, _⟩ := exists_shape_of_matches_statement matching
    exact ⟨'i', _, rfl, by decide⟩
  · intro matched matching
    obtain ⟨firstGap, _, rfl, _, _, matching⟩ := exists_shape_of_matches_statement matching
    obtain ⟨clause, gap, name, rfl, _, _, _, quoted⟩ :=
      exists_shape_of_matches_clauseItems matching
    obtain ⟨front, edge, shape, _⟩ := quoted.final
    refine
      ⟨"import".toList ++ (firstGap ++ (clause ++ ("from".toList ++ (gap ++ front)))), edge, ?_,
        (quoted.edge_ne shape).2⟩
    rw [shape]
    simp only [List.append_assoc]

/-- A statement stays one when another gap takes the place of a line break. -/
theorem respaceable_statement : Respaceable statement.items := by
  have name :
      Respaceable
        [.one .quote, .many .shortest .inLine, .one .quote, .optional (.literal ';')] :=
    .one isDisjoint_quote_space
      (.many isDisjoint_inLine_lineBreak
        (.one isDisjoint_quote_space (.optional (isDisjoint_literal (by decide)) .nil)))
  have clause : Respaceable clauseItems :=
    .many isDisjoint_inLine_lineBreak
      (.text (by decide) (.someSpaces (.one isDisjoint_quote_space) name))
  have barrier : Barrier clauseItems :=
    .many (by decide) (.one (isDisjoint_literal (by decide)))
  rw [items_statement]
  exact .text (by decide) (.someSpaces barrier clause)

theorem isFramed_call : call.IsFramed :=
  .of_ends rfl rfl (isDisjoint_literal (by decide)) (isDisjoint_literal (by decide))

theorem respaceable_call : Respaceable call.items := by
  have argument :
      Respaceable
        [.one .quote, .many .shortest .inLine, .one .quote, .one (.literal ')')] :=
    .one isDisjoint_quote_space
      (.many isDisjoint_inLine_lineBreak
        (.one isDisjoint_quote_space (.one (isDisjoint_literal (by decide)) .nil)))
  have solid : (CharClass.literal '(').IsDisjoint .space :=
    isDisjoint_literal (by decide)
  exact .text (by decide) (.spaces (.one solid) (.one solid argument))

end Imports

/-! ## Functions -/

namespace Functions

theorem isFramed_declaration : declaration.IsFramed :=
  .of_ends rfl rfl (isDisjoint_literal (by decide)) (isDisjoint_literal (by decide))

theorem respaceable_declaration : Respaceable declaration.items := by
  have solid : (CharClass.literal '(').IsDisjoint .space :=
    isDisjoint_literal (by decide)
  have afterName :
      Respaceable
        [.one .word, .many .longest .word, .many .longest .space, .one (.literal '(')] :=
    .one isDisjoint_word_space
      (.many isDisjoint_word_lineBreak (.spaces (.one solid) (.one solid .nil)))
  exact .text (by decide) (.someSpaces (.one isDisjoint_word_space) afterName)

theorem exists_shape_of_matches_declaration
    {text : List Char} (matching : Matches declaration.items text) :
    ∃ gap name secondGap,
      text = "function".toList ++ (gap ++ (name ++ (secondGap ++ ['(']))) ∧
        gap ≠ [] ∧ CharClass.space.Covers gap ∧ name ≠ [] ∧ CharClass.word.Covers name ∧
          CharClass.space.Covers secondGap := by
  rw [declaration, matches_text_append_iff] at matching
  obtain ⟨_, rfl, matching⟩ := matching
  rw [matches_one_many_iff] at matching
  obtain ⟨gap, _, rfl, gapNonempty, gapCovered, matching⟩ := matching
  rw [matches_one_many_iff] at matching
  obtain ⟨name, _, rfl, nameNonempty, nameCovered, matching⟩ := matching
  rw [matches_many_iff] at matching
  obtain ⟨secondGap, _, rfl, secondGapCovered, matching⟩ := matching
  rw [matches_one_iff] at matching
  obtain ⟨parenthesis, _, rfl, isParenthesis, matching⟩ := matching
  rw [(matches_nil_iff _).mp matching]
  have same : parenthesis = '(' := by
    simpa [CharClass.contains] using isParenthesis
  rw [same]
  exact
    ⟨gap, name, secondGap, rfl, gapNonempty, gapCovered, nameNonempty, nameCovered,
      secondGapCovered⟩

theorem covers_word_of_mem_branchWords
    {word : String} (member : word ∈ branchWords) :
    word.toList ≠ [] ∧ CharClass.word.Covers word.toList := by
  have checked :
      ∀ word ∈ branchWords, word.toList ≠ [] ∧ CharClass.word.Covers word.toList := by
    decide
  exact checked word member

/-- A search for a word matches that word and nothing else. -/
theorem matches_wholeWord_iff (word : String) (text : List Char) :
    Matches (wholeWord word).items text ↔ text = word.toList := by
  have shape : (wholeWord word).items = Item.text word ++ [] :=
    (List.append_nil _).symm
  rw [shape, matches_text_append_iff]
  simp

/-- A search for a word has one match at most at every place. -/
theorem isImpartial_wholeWord
    {word : String} (nonempty : word.toList ≠ []) : (wholeWord word).IsImpartial := by
  constructor
  · rw [matches_wholeWord_iff]
    exact nonempty.symm
  · have shape : (wholeWord word).items = Item.text word ++ [] :=
      (List.append_nil _).symm
    rw [shape]
    exact .text word (prefersShortest_nil _)

theorem isFramed_wholeWord
    {word : String} (nonempty : word.toList ≠ []) (covered : CharClass.word.Covers word.toList) :
    (wholeWord word).IsFramed := by
  constructor
  · intro matched matching
    rw [matches_wholeWord_iff] at matching
    obtain ⟨head, rest, shape⟩ := List.exists_cons_of_ne_nil nonempty
    rw [shape] at matching covered
    exact ⟨head, rest, matching, isDisjoint_word_space head (covered head (by simp))⟩
  · intro matched matching
    rw [matches_wholeWord_iff] at matching
    obtain ⟨front, edge, shape⟩ := (List.eq_nil_or_concat _).resolve_left nonempty
    rw [List.concat_eq_append] at shape
    rw [shape] at matching covered
    exact ⟨front, edge, matching, isDisjoint_word_space edge (covered edge (by simp))⟩

theorem respaceable_wholeWord
    {word : String} (covered : CharClass.word.Covers word.toList) :
    Respaceable (wholeWord word).items := by
  have shape : (wholeWord word).items = Item.text word ++ [] :=
    (List.append_nil _).symm
  rw [shape]
  exact .text covered .nil

end Functions

/-! ## Creation in place -/

namespace Inline.Creation

theorem isImpartial_pattern (creation : Creation) : creation.pattern.IsImpartial := by
  cases creation with
  | object => exact isImpartial_object
  | function => exact isImpartial_function

theorem isFramed_pattern (creation : Creation) : creation.pattern.IsFramed := by
  cases creation with
  | object =>
      exact .of_ends rfl rfl (isDisjoint_literal (by decide)) (isDisjoint_literal (by decide))
  | function =>
      exact .of_ends rfl rfl (isDisjoint_literal (by decide)) (isDisjoint_literal (by decide))

theorem respaceable_pattern (creation : Creation) : Respaceable creation.pattern.items := by
  have opening : (CharClass.literal '{').IsDisjoint .space :=
    isDisjoint_literal (by decide)
  have closing : (CharClass.literal '}').IsDisjoint .space :=
    isDisjoint_literal (by decide)
  cases creation with
  | object =>
      have closed :
          Respaceable [.one (.literal '}'), .many .longest .space, .one (.literal '}')] :=
        .one closing (.spaces (.one closing) (.one closing .nil))
      exact
        .one opening
          (.spaces (.one opening) (.one opening (.many isDisjoint_inLine_lineBreak closed)))
  | function =>
      have parenthesis : (CharClass.literal '(').IsDisjoint .space :=
        isDisjoint_literal (by decide)
      have equals : (CharClass.literal '=').IsDisjoint .space :=
        isDisjoint_literal (by decide)
      have result :
          Respaceable
            [.many .longest .space, .many .shortest .inLine, .one (.literal '}')] :=
        .spaces (.many (by decide) (.one closing))
          (.many isDisjoint_inLine_lineBreak (.one closing .nil))
      have arrow : Respaceable arrowItems :=
        .one (isDisjoint_literal (by decide))
          (.spaces (.one equals) (.one equals (.one (isDisjoint_literal (by decide)) result)))
      exact
        .one opening
          (.spaces (.one parenthesis)
            (.one parenthesis (.many isDisjoint_inLine_lineBreak arrow)))

end Inline.Creation

end SourceCritic.Rule
