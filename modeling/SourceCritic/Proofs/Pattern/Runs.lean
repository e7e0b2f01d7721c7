import SourceCritic.Proofs.Pattern.Layout

/-!
# Runs of a class

A run of a class ends where a character outside the class, or the end of the text, is reached.
There is only one way to divide a text into a run and what follows its end; the same holds for
runs at the end of a text.  The classes that patterns use are disjoint for the most part, and this
decides which runs can stop early.
-/

namespace SourceCritic

namespace CharClass

/-- No character belongs to both classes. -/
def IsDisjoint (first second : CharClass) : Prop :=
  ∀ tested, first.contains tested = true → second.contains tested = false

theorem IsDisjoint.symm
    {first second : CharClass} (disjoint : first.IsDisjoint second) :
    second.IsDisjoint first := by
  intro tested belongs
  cases other : first.contains tested with
  | false => rfl
  | true =>
      rw [disjoint tested other] at belongs
      cases belongs

theorem isDisjoint_literal
    {expected : Char} {taken : CharClass}
    (outside : taken.contains expected = false) :
    (CharClass.literal expected).IsDisjoint taken := by
  intro tested belongs
  have same : tested = expected := by
    simpa [contains] using belongs
  rw [same]
  exact outside

theorem isDisjoint_word_space : CharClass.word.IsDisjoint .space := by
  intro tested belongs
  have ranges :
      (((decide (tested.val ≥ 'A'.val ∧ tested.val ≤ 'Z'.val) ||
        (tested.val ≥ 'a'.val && tested.val ≤ 'z'.val)) ||
          (tested.val ≥ '0'.val && tested.val ≤ '9'.val)) || tested = '_') = true :=
    belongs
  simp only [Bool.or_eq_true, Bool.and_eq_true, decide_eq_true_eq,
    UInt32.le_iff_toNat_le] at ranges
  have lower : 33 ≤ tested.toNat := by
    rcases ranges with ((belongs | belongs) | belongs) | rfl
    · exact Nat.le_trans (by decide) belongs.1
    · exact Nat.le_trans (by decide) belongs.1
    · exact Nat.le_trans (by decide) belongs.1
    · decide
  have upper : tested.toNat ≤ 122 := by
    rcases ranges with ((belongs | belongs) | belongs) | rfl
    · exact Nat.le_trans belongs.2 (by decide)
    · exact Nat.le_trans belongs.2 (by decide)
    · exact Nat.le_trans belongs.2 (by decide)
    · decide
  simp [contains, Text.isSpace, Text.spaceRanges]
  omega

theorem isDisjoint_quote_space : CharClass.quote.IsDisjoint .space := by
  intro tested belongs
  have cases : tested = '\'' ∨ tested = '"' := by
    simpa [contains] using belongs
  rcases cases with rfl | rfl <;> decide

theorem contains_space_of_isLineBreak
    {tested : Char} (broken : Text.isLineBreak tested = true) :
    CharClass.space.contains tested = true := by
  have cases : tested = '\n' ∨ tested = '\r' := by
    simpa [Text.isLineBreak] using broken
  rcases cases with rfl | rfl <;> decide

theorem contains_inLine_of_not_space
    {tested : Char} (solid : CharClass.space.contains tested = false) :
    CharClass.inLine.contains tested = true := by
  cases broken : Text.isLineBreak tested with
  | false => simp [contains, broken]
  | true =>
      rw [contains_space_of_isLineBreak broken] at solid
      cases solid

/-- A character of one class does not occur in a run of a disjoint one. -/
theorem IsDisjoint.not_mem_of_covers
    {first second : CharClass} {tested : Char} {text : List Char}
    (disjoint : first.IsDisjoint second)
    (belongs : first.contains tested = true)
    (covered : second.Covers text) :
    tested ∉ text := by
  intro member
  have inside := covered tested member
  rw [disjoint _ belongs] at inside
  cases inside

/-! ## Ends of runs -/

/-- A text does not begin with a character of a class. -/
def Stops (taken : CharClass) (text : List Char) : Prop :=
  ∀ character ∈ text.head?, taken.contains character = false

theorem stops_nil (taken : CharClass) : taken.Stops [] := by
  simp [Stops]

@[simp]
theorem stops_cons_iff (taken : CharClass) (head : Char) (rest : List Char) :
    taken.Stops (head :: rest) ↔ taken.contains head = false := by
  simp [Stops]

/-- Two runs at the beginning of one text are equal if both of them end. -/
theorem Covers.append_inj
    {taken : CharClass} {first second firstRest secondRest : List Char}
    (firstCovered : taken.Covers first)
    (secondCovered : taken.Covers second)
    (firstStops : taken.Stops firstRest)
    (secondStops : taken.Stops secondRest)
    (division : first ++ firstRest = second ++ secondRest) :
    first = second ∧ firstRest = secondRest := by
  induction first generalizing second with
  | nil =>
      cases second with
      | nil => exact ⟨rfl, division⟩
      | cons head rest =>
          rw [List.nil_append] at division
          rw [covers_cons_iff] at secondCovered
          rw [division, List.cons_append, stops_cons_iff, secondCovered.1] at firstStops
          cases firstStops
  | cons head rest inductionHypothesis =>
      rw [covers_cons_iff] at firstCovered
      cases second with
      | nil =>
          rw [List.nil_append] at division
          rw [← division, List.cons_append, stops_cons_iff, firstCovered.1] at secondStops
          cases secondStops
      | cons otherHead otherRest =>
          rw [covers_cons_iff] at secondCovered
          rw [List.cons_append, List.cons_append] at division
          injection division with sameHead sameRest
          obtain ⟨sameRun, sameText⟩ :=
            inductionHypothesis firstCovered.2 secondCovered.2 sameRest
          exact ⟨by rw [sameHead, sameRun], sameText⟩

/-- A run before a character outside its class reaches as far as any other division in front of
that character. -/
theorem Covers.split_at_outside
    {taken : CharClass} {run rest before after : List Char} {outside : Char}
    (covered : taken.Covers run)
    (notBelongs : taken.contains outside = false)
    (division : run ++ rest = before ++ outside :: after) :
    ∃ between, before = run ++ between ∧ rest = between ++ outside :: after := by
  induction run generalizing before with
  | nil => exact ⟨before, rfl, division⟩
  | cons head tail inductionHypothesis =>
      rw [covers_cons_iff] at covered
      cases before with
      | nil =>
          rw [List.cons_append, List.nil_append] at division
          injection division with sameHead _
          rw [← sameHead, covered.1] at notBelongs
          cases notBelongs
      | cons first later =>
          rw [List.cons_append, List.cons_append] at division
          injection division with sameHead sameRest
          obtain ⟨between, rfl, remaining⟩ := inductionHypothesis covered.2 sameRest
          exact ⟨between, by rw [sameHead]; rfl, remaining⟩

/-- A text is a run of a class, or it has a first character outside of it. -/
theorem covers_or_exists_outside (taken : CharClass) (text : List Char) :
    taken.Covers text ∨
      ∃ run outside rest,
        text = run ++ outside :: rest ∧ taken.Covers run ∧
          taken.contains outside = false := by
  induction text with
  | nil => exact Or.inl (covers_nil taken)
  | cons head rest inductionHypothesis =>
      cases belongs : taken.contains head with
      | false => exact Or.inr ⟨[], head, rest, rfl, covers_nil taken, belongs⟩
      | true =>
          rcases inductionHypothesis with
            covered | ⟨run, outside, later, rfl, covered, notBelongs⟩
          · exact Or.inl ((covers_cons_iff taken head rest).mpr ⟨belongs, covered⟩)
          · exact
              Or.inr
                ⟨head :: run, outside, later, rfl,
                  (covers_cons_iff taken head run).mpr ⟨belongs, covered⟩, notBelongs⟩

theorem Covers.reverse
    {taken : CharClass} {text : List Char} (covered : taken.Covers text) :
    taken.Covers text.reverse := by
  intro character member
  exact covered character (List.mem_reverse.mp member)

/-- Two runs at the end of one text are equal if a character outside the class stands in front of
both of them. -/
theorem Covers.append_inj_right
    {taken : CharClass} {first second firstRun secondRun : List Char}
    {firstEdge secondEdge : Char}
    (firstCovered : taken.Covers firstRun)
    (secondCovered : taken.Covers secondRun)
    (firstOutside : taken.contains firstEdge = false)
    (secondOutside : taken.contains secondEdge = false)
    (division :
      first ++ firstEdge :: firstRun = second ++ secondEdge :: secondRun) :
    first ++ [firstEdge] = second ++ [secondEdge] ∧ firstRun = secondRun := by
  have reversed :
      firstRun.reverse ++ firstEdge :: first.reverse =
        secondRun.reverse ++ secondEdge :: second.reverse := by
    simpa using congrArg List.reverse division
  obtain ⟨sameRun, sameFront⟩ :=
    firstCovered.reverse.append_inj secondCovered.reverse
      ((stops_cons_iff taken _ _).mpr firstOutside)
      ((stops_cons_iff taken _ _).mpr secondOutside) reversed
  injection sameFront with sameEdge sameFirst
  exact
    ⟨by rw [List.reverse_inj.mp sameFirst, sameEdge], List.reverse_inj.mp sameRun⟩

end CharClass

/-! ## Lines and runs -/

private theorem CharClass.contains_inLine_eq_false_iff (tested : Char) :
    CharClass.inLine.contains tested = false ↔ tested = '\n' ∨ tested = '\r' := by
  simp only [CharClass.contains, Text.isLineBreak, Bool.not_eq_false', Bool.or_eq_true,
    decide_eq_true_eq]

/-- A line starts behind a break, but not within one. -/
theorem Anchor.lineStart_holds_iff (previous next : Option Char) :
    Anchor.lineStart.holds previous next = true ↔
      (∀ character ∈ previous, CharClass.inLine.contains character = false) ∧
        (previous = some '\r' → next ≠ some '\n') := by
  cases previous with
  | none => simp [Anchor.holds]
  | some character =>
      by_cases isReturn : character = '\r'
      · simp [Anchor.holds, CharClass.contains_inLine_eq_false_iff, isReturn]
      · simp [Anchor.holds, CharClass.contains_inLine_eq_false_iff, isReturn]

/-- A line ends in front of a break, but not within one. -/
theorem Anchor.lineEnd_holds_iff (previous next : Option Char) :
    Anchor.lineEnd.holds previous next = true ↔
      (∀ character ∈ next, CharClass.inLine.contains character = false) ∧
        (previous = some '\r' → next ≠ some '\n') := by
  cases next with
  | none => simp [Anchor.holds]
  | some character =>
      by_cases isNewline : character = '\n'
      · simp [Anchor.holds, CharClass.contains_inLine_eq_false_iff, isNewline]
      · simp [Anchor.holds, CharClass.contains_inLine_eq_false_iff, isNewline]

/-- In front of a line that is not the first one stands a line break. -/
theorem CharClass.lineBreak_of_lineStart
    {edge : Char} {next : Option Char}
    (started : Anchor.lineStart.holds (some edge) next = true) :
    CharClass.inLine.contains edge = false :=
  ((Anchor.lineStart_holds_iff _ _).mp started).1 edge rfl

theorem CharClass.stops_inLine_of_lineEnd
    {previous : Option Char} {after : List Char}
    (ended : Anchor.lineEnd.holds previous after.head? = true) :
    CharClass.inLine.Stops after :=
  ((Anchor.lineEnd_holds_iff _ _).mp ended).1

end SourceCritic
