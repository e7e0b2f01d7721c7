import SourceCritic.Proofs.Rule.Framing

/-!
# Bodies of functions

The body of a declaration ends at the first closing brace that leaves as many closing as opening
braces behind.  Whether there has been an opening brace yet need not be asked: the closing braces
can only catch up with the opening ones if there are any.

Only the order of the braces matters, so neither a text behind the body nor white space within it
changes what the body is.
-/

namespace SourceCritic.Rule.Functions

/-- The number of opening less the number of closing braces. -/
def level (text : List Char) : Int :=
  (text.count '{' : Int) - text.count '}'

@[simp]
theorem level_nil : level [] = 0 :=
  rfl

/-- The level of a text is added up from its parts. -/
theorem level_append (first second : List Char) :
    level (first ++ second) = level first + level second := by
  simp only [level, List.count_append]
  omega

/-- A part of a text in front of the closing brace that ends the body, if `passed` is what has
been read of the body before. -/
def IsBody (passed text body : List Char) : Prop :=
  ∃ rest,
    text = body ++ '}' :: rest ∧ level (passed ++ body) = 1 ∧
      ∀ front later, body = front ++ '}' :: later → level (passed ++ front) ≠ 1

/-- A character that does not end the body belongs to it. -/
theorem exists_isBody_cons_iff
    {passed : List Char} {head : Char} (rest : List Char) (length : Nat)
    (goesOn : head = '}' → level passed ≠ 1) :
    (∃ body, IsBody passed (head :: rest) body ∧ length = passed.length + body.length) ↔
      ∃ body,
        IsBody (passed ++ [head]) rest body ∧
          length = (passed ++ [head]).length + body.length := by
  constructor
  · rintro ⟨body, ⟨later, division, closed, earliest⟩, counted⟩
    cases body with
    | nil =>
        rw [List.nil_append] at division
        injection division with isBrace _
        rw [List.append_nil] at closed
        exact absurd closed (goesOn isBrace)
    | cons first body =>
        rw [List.cons_append] at division
        injection division with sameHead sameRest
        subst sameHead
        refine ⟨body, ⟨later, sameRest, ?_, ?_⟩, ?_⟩
        · simpa using closed
        · intro front after shape
          have notClosed := earliest (head :: front) after (by rw [shape]; rfl)
          simpa using notClosed
        · rw [counted, List.length_append, List.length_cons, List.length_cons, List.length_nil]
          omega
  · rintro ⟨body, ⟨later, rfl, closed, earliest⟩, rfl⟩
    refine ⟨head :: body, ⟨later, rfl, by simpa using closed, ?_⟩, ?_⟩
    · intro front after shape
      cases front with
      | nil =>
          rw [List.nil_append] at shape
          injection shape with isBrace _
          rw [List.append_nil]
          exact goesOn isBrace
      | cons first front =>
          rw [List.cons_append] at shape
          injection shape with sameHead sameBody
          subst sameHead
          simpa using earliest front after sameBody
    · rw [List.length_append, List.length_cons, List.length_cons, List.length_nil]
      omega

theorem mem_of_level_eq_one {text : List Char} (closed : level text = 1) : '{' ∈ text := by
  rw [← List.count_pos_iff]
  rw [level] at closed
  omega

/-- The search for the end of a body counts braces. -/
theorem bodyLength?_eq_some_iff (passed text : List Char) (length : Nat) :
    bodyLength? (level passed) (decide ('{' ∈ passed)) passed.length text = some length ↔
      ∃ body, IsBody passed text body ∧ length = passed.length + body.length := by
  induction text generalizing passed with
  | nil => simp [bodyLength?, IsBody]
  | cons head rest inductionHypothesis =>
      have step := inductionHypothesis (passed ++ [head])
      rw [List.length_append, List.length_singleton, level_append] at step
      rw [bodyLength?]
      split
      · rename_i isOpening
        subst isOpening
        rw [exists_isBody_cons_iff rest length (by simp), List.length_append,
          List.length_singleton, ← step]
        simp [level]
      · rename_i notOpening
        split
        · rename_i isClosing
          subst isClosing
          have lowered : level passed + level ['}'] = level passed - 1 :=
            rfl
          split
          · rename_i ended
            have closed : level passed = 1 := by
              omega
            constructor
            · intro found
              cases found
              refine ⟨[], ⟨rest, rfl, by simpa using closed, ?_⟩, rfl⟩
              intro front later impossible
              simp at impossible
            · rintro ⟨body, ⟨later, division, _, earliest⟩, rfl⟩
              cases body with
              | nil => rfl
              | cons first body =>
                  rw [List.cons_append] at division
                  injection division with sameHead _
                  have notClosed := earliest [] body (by rw [← sameHead]; rfl)
                  rw [List.append_nil] at notClosed
                  exact absurd closed notClosed
          · rename_i notEnded
            have notClosed : level passed ≠ 1 := by
              intro closed
              exact notEnded ⟨by omega, by simpa using mem_of_level_eq_one closed⟩
            rw [exists_isBody_cons_iff rest length (fun _ => notClosed), List.length_append,
              List.length_singleton, ← step, lowered]
            simp
        · rename_i notClosing
          have same : level passed + level [head] = level passed := by
            simp [level, notOpening, notClosing]
          rw [exists_isBody_cons_iff rest length (fun isClosing => absurd isClosing notClosing),
            List.length_append, List.length_singleton, ← step, same]
          simp [Ne.symm notOpening]

/-- A body ends where the level first comes back to zero. -/
theorem body?_eq_some_iff (text body : List Char) :
    body? text = some body ↔ IsBody [] text body := by
  rw [body?, Option.map_eq_some_iff]
  have counted := bodyLength?_eq_some_iff [] text
  constructor
  · rintro ⟨length, found, rfl⟩
    obtain ⟨body, isBody, rfl⟩ := (counted length).mp found
    obtain ⟨rest, division, _⟩ := id isBody
    have same : text.take (([] : List Char).length + body.length) = body := by
      rw [division]
      simp
    rw [same]
    exact isBody
  · intro isBody
    refine ⟨body.length, (counted body.length).mpr ⟨body, isBody, by simp⟩, ?_⟩
    obtain ⟨rest, rfl, _⟩ := isBody
    simp

/-- What stands behind a body does not matter to it. -/
theorem body?_append
    {text body : List Char} (found : body? text = some body) (added : List Char) :
    body? (text ++ added) = some body := by
  rw [body?_eq_some_iff] at found ⊢
  obtain ⟨rest, rfl, closed, earliest⟩ := found
  exact ⟨rest ++ added, by simp, closed, earliest⟩

/-! ## Bodies and white space -/

open Respacing

private theorem level_target (respacing : Respacing) :
    level (target respacing) = level (source respacing) := by
  induction respacing with
  | nil => rfl
  | cons stretch later inductionHypothesis =>
      have sameStretch : level stretch.target = level [stretch.source] := by
        cases stretch with
        | kept character _ => rfl
        | gap spaces isGap =>
            have absent :
                ∀ brace, CharClass.space.contains brace = false → spaces.count brace = 0 := by
              intro brace solid
              rw [List.count_eq_zero]
              intro member
              rw [isGap.covered brace member] at solid
              cases solid
            simp only [Stretch.target, Stretch.source, level]
            rw [absent '{' (by decide), absent '}' (by decide)]
            rfl
      rw [target_cons, level_append, sameStretch, inductionHypothesis, ← level_append]
      rfl

/-- Whether a closing brace ends the body does not depend on the white space before it. -/
private theorem isBody_target_iff
    (inner later : Respacing) (notNewline : '}' ≠ '\n') :
    IsBody [] (target (inner ++ .kept '}' notNewline :: later)) (target inner) ↔
      IsBody [] (source (inner ++ .kept '}' notNewline :: later)) (source inner) := by
  constructor
  · rintro ⟨_, _, closed, earliest⟩
    refine ⟨source later, source_append _ _, ?_, ?_⟩
    · rw [List.nil_append, level_target] at closed
      exact closed
    · intro front after division
      obtain ⟨first, second, rfl, rfl, secondDivision⟩ := exists_of_source_eq_append division
      obtain ⟨rest, rfl, _⟩ := exists_kept_of_source_eq_cons notNewline secondDivision
      have notClosed := earliest (target first) (target rest) (target_append _ _)
      rw [List.nil_append, level_target] at notClosed
      exact notClosed
  · rintro ⟨_, _, closed, earliest⟩
    refine ⟨target later, target_append _ _, ?_, ?_⟩
    · rw [List.nil_append, level_target]
      exact closed
    · intro front after division
      obtain ⟨first, second, rfl, rfl, secondDivision⟩ :=
        exists_of_target_eq_append_cons (by decide) division
      obtain ⟨_, rest, rfl, _⟩ := exists_kept_of_target_eq_cons (by decide) secondDivision
      have notClosed := earliest (source first) (source rest) (source_append _ _)
      rw [List.nil_append, level_target]
      exact notClosed

/-- A body can be cut out of either text of an alignment. -/
theorem body?_target (respacing : Respacing) :
    ∃ inner : Option Respacing,
      (∀ part ∈ inner, part <+: respacing) ∧
        body? (source respacing) = inner.map source ∧
          body? (target respacing) = inner.map target := by
  cases found : body? (source respacing) with
  | some body =>
      rw [body?_eq_some_iff] at found
      obtain ⟨rest, division, _⟩ := id found
      obtain ⟨inner, tail, rfl, rfl, tailDivision⟩ := exists_of_source_eq_append division
      obtain ⟨later, rfl, _⟩ := exists_kept_of_source_eq_cons (by decide) tailDivision
      refine ⟨some inner, by simp, rfl, ?_⟩
      rw [Option.map_some, body?_eq_some_iff, isBody_target_iff]
      exact found
  | none =>
      refine ⟨none, by simp, rfl, ?_⟩
      rw [Option.map_none, Option.eq_none_iff_forall_ne_some]
      intro body targetFound
      rw [body?_eq_some_iff] at targetFound
      obtain ⟨rest, division, _⟩ := id targetFound
      obtain ⟨inner, tail, rfl, rfl, tailDivision⟩ :=
        exists_of_target_eq_append_cons (by decide) division
      obtain ⟨_, later, rfl, _⟩ := exists_kept_of_target_eq_cons (by decide) tailDivision
      rw [isBody_target_iff, ← body?_eq_some_iff, found] at targetFound
      cases targetFound

theorem complexity_target (respacing : Respacing) :
    complexity (target respacing) = complexity (source respacing) := by
  have sameCounts :
      ∀ word ∈ branchWords,
        ((wholeWord word).occurrences (target respacing)).length =
          ((wholeWord word).occurrences (source respacing)).length := by
    intro word member
    obtain ⟨nonempty, covered⟩ := covers_word_of_mem_branchWords member
    exact
      (forall₂_aligned_occurrences (isImpartial_wholeWord nonempty)
        (isFramed_wholeWord nonempty covered) (respaceable_wholeWord covered)
        respacing).length_eq.symm
  rw [complexity, complexity, List.map_congr_left sameCounts]

/-! ## Names and white space -/

/-- The name is the first run of word characters behind the word `function`. -/
theorem declaredName_append
    {gap name rest : List Char}
    (gapCovered : CharClass.space.Covers gap)
    (nonempty : name ≠ [])
    (nameCovered : CharClass.word.Covers name)
    (stops : CharClass.word.Stops rest) :
    declaredName ("function".toList ++ (gap ++ (name ++ rest))) = name := by
  have wordDropped :
      ("function".toList ++ (gap ++ (name ++ rest))).drop "function".length =
        gap ++ (name ++ rest) :=
    List.drop_left
  have gapDropped :
      (gap ++ (name ++ rest)).dropWhile Text.isSpace =
        (name ++ rest).dropWhile Text.isSpace :=
    List.dropWhile_append_of_pos gapCovered
  have nameTaken :
      (name ++ rest).takeWhile Text.isWordCharacter =
        name ++ rest.takeWhile Text.isWordCharacter :=
    List.takeWhile_append_of_pos nameCovered
  have solid : (name ++ rest).dropWhile Text.isSpace = name ++ rest := by
    obtain ⟨head, later, rfl⟩ := List.exists_cons_of_ne_nil nonempty
    have notSpace : Text.isSpace head = false :=
      CharClass.isDisjoint_word_space head (nameCovered head (by simp))
    rw [List.cons_append, List.dropWhile_cons, notSpace]
    rfl
  have ended : rest.takeWhile Text.isWordCharacter = [] := by
    cases rest with
    | nil => rfl
    | cons head later =>
        have notWord : Text.isWordCharacter head = false :=
          (CharClass.stops_cons_iff .word head later).mp stops
        rw [List.takeWhile_cons, notWord]
        rfl
  rw [declaredName, wordDropped, gapDropped, solid, nameTaken, ended, List.append_nil]

theorem stops_word_gap_parenthesis
    {gap : List Char} (covered : CharClass.space.Covers gap) (rest : List Char) :
    CharClass.word.Stops (gap ++ '(' :: rest) := by
  cases gap with
  | nil =>
      rw [List.nil_append, CharClass.stops_cons_iff]
      decide
  | cons head later =>
      rw [List.cons_append, CharClass.stops_cons_iff]
      exact CharClass.isDisjoint_word_space.symm head (covered head (by simp))

theorem declaredName_target
    {matched : Respacing} (matching : Matches declaration.items (source matched)) :
    declaredName (target matched) = declaredName (source matched) := by
  obtain ⟨_, _, _, division, _, gapCovered, nonempty, nameCovered, secondGapCovered⟩ :=
    exists_shape_of_matches_declaration matching
  obtain ⟨word, _, rfl, isWord, behindWord⟩ := exists_of_source_eq_append division
  obtain ⟨gap, _, rfl, rfl, behindGap⟩ := exists_of_source_eq_append behindWord
  obtain ⟨name, _, rfl, rfl, behindName⟩ := exists_of_source_eq_append behindGap
  obtain ⟨secondGap, parenthesis, rfl, rfl, isParenthesis⟩ :=
    exists_of_source_eq_append behindName
  have targetWord : target word = "function".toList := by
    rw [target_eq_source (by rw [isWord]; decide), isWord]
  have targetName : target name = source name := by
    refine target_eq_source fun member => ?_
    exact absurd (nameCovered '\n' member) (by decide)
  have targetParenthesis : target parenthesis = ['('] := by
    rw [target_eq_source (by rw [isParenthesis]; decide), isParenthesis]
  have targetGapCovered := (covers_space_target_iff gap).mpr gapCovered
  have targetSecondCovered := (covers_space_target_iff secondGap).mpr secondGapCovered
  simp only [target_append, source_append]
  rw [isWord, isParenthesis, targetWord, targetName, targetParenthesis,
    declaredName_append gapCovered nonempty nameCovered
      (stops_word_gap_parenthesis secondGapCovered []),
    declaredName_append targetGapCovered nonempty nameCovered
      (stops_word_gap_parenthesis targetSecondCovered [])]

end SourceCritic.Rule.Functions
