import SourceCritic.Proofs.Pattern.Runs
import SourceCritic.Proofs.Text.Bytes

/-!
# Words of a text

A word of a text is a run of word characters that cannot be made longer: no word character stands
in front of it or behind it.  All words are found in one pass, which keeps the run that it is
reading and finishes a word at every character that is no word character, and at the end.

The words found from some place on are exactly those that begin there or later.  The pass keeps
this up because the run being read began behind a character that is no word character.
-/

namespace SourceCritic.Text

/-- A word of a text: what stands before it, and its characters. -/
structure Word where
  before : List Char
  characters : List Char
  deriving DecidableEq, Repr

namespace Word

/-- The byte at which a word begins. -/
def start (word : Word) : Nat :=
  (bytes word.before).length

/-- The byte behind a word. -/
def stop (word : Word) : Nat :=
  (bytes (word.before ++ word.characters)).length

/-- A word is a run of word characters with no word character on either side. -/
structure IsIn (text : List Char) (word : Word) : Prop where
  nonempty : word.characters ≠ []
  covered : CharClass.word.Covers word.characters
  noneBefore : word.before.getLast?.any isWordCharacter = false
  noneBehind :
    ∃ after,
      text = word.before ++ (word.characters ++ after) ∧ after.head?.any isWordCharacter = false

/-- A run that has been read is a word, unless it is empty. -/
def finished (before pending : List Char) : List Word :=
  if pending = [] then [] else [{ before := before, characters := pending }]

private theorem mem_finished_iff (before pending : List Char) (word : Word) :
    word ∈ finished before pending ↔
      pending ≠ [] ∧ word = { before := before, characters := pending } := by
  by_cases empty : pending = []
  · simp [finished, empty]
  · simp [finished, empty]

end Word

/-- The words from a place on, behind a run that is being read. -/
def wordsBehind : (before pending text : List Char) → List Word
  | before, pending, [] => Word.finished before pending
  | before, pending, head :: rest =>
      if isWordCharacter head then
        wordsBehind before (pending ++ [head]) rest
      else
        Word.finished before pending ++ wordsBehind (before ++ (pending ++ [head])) [] rest

/-- The words of a text in the order in which they begin. -/
def words (text : List Char) : List Word :=
  wordsBehind [] [] text

/-! ## All words are found -/

private theorem stops_word_iff (text : List Char) :
    CharClass.word.Stops text ↔ text.head?.any isWordCharacter = false := by
  cases text with
  | nil => simp [CharClass.stops_nil]
  | cons head rest => simp [CharClass.contains]

namespace Word.IsIn

variable {before pending tail : List Char} {word : Word}

private theorem ofPending
    (nonempty : pending ≠ [])
    (covered : CharClass.word.Covers pending)
    (noneBefore : before.getLast?.any isWordCharacter = false)
    (stops : CharClass.word.Stops tail) :
    IsIn (before ++ (pending ++ tail)) { before := before, characters := pending } := by
  have noneBehind := (stops_word_iff tail).mp stops
  exact ⟨nonempty, covered, noneBefore, tail, rfl, noneBehind⟩

/-- A word that begins within a run that begins behind no word character is the whole of it. -/
theorem eq_pending
    (isIn : word.IsIn (before ++ (pending ++ tail)))
    (covered : CharClass.word.Covers pending)
    (stops : CharClass.word.Stops tail)
    (reached : before.length ≤ word.before.length)
    (within : word.before.length ≤ (before ++ pending).length) :
    word = { before := before, characters := pending } := by
  obtain ⟨after, division, noneBehind⟩ := isIn.noneBehind
  have afterStops := (stops_word_iff after).mpr noneBehind
  obtain ⟨between, extended⟩ : before <+: word.before :=
    List.prefix_of_prefix_length_le ⟨_, rfl⟩ ⟨_, division.symm⟩ reached
  rw [← extended, List.append_assoc, List.append_cancel_left_eq] at division
  obtain ⟨later, pendingShape⟩ : between <+: pending := by
    have shorter : between.length ≤ pending.length := by
      rw [← extended, List.length_append, List.length_append] at within
      omega
    exact List.prefix_of_prefix_length_le ⟨_, division.symm⟩ ⟨_, rfl⟩ shorter
  rcases List.eq_nil_or_concat between with empty | ⟨front, edge, concatenated⟩
  · rw [empty, List.append_nil] at extended
    rw [empty, List.nil_append] at division
    have same := covered.append_inj isIn.covered stops afterStops division
    rw [extended, same.1]
  · -- The last character before the word would be one of the run.
    have isWord : isWordCharacter edge = true := by
      apply covered edge
      rw [← pendingShape, concatenated]
      simp
    have noneBefore := isIn.noneBefore
    rw [← extended, concatenated, List.concat_eq_append, ← List.append_assoc,
      List.getLast?_concat, Option.any_some, isWord] at noneBefore
    cases noneBefore

private theorem iff_behind
    (covered : CharClass.word.Covers pending)
    (noneBefore : before.getLast?.any isWordCharacter = false)
    (stops : CharClass.word.Stops tail) :
    word.IsIn (before ++ (pending ++ tail)) ∧ before.length ≤ word.before.length ↔
      (pending ≠ [] ∧ word = { before := before, characters := pending }) ∨
        word.IsIn (before ++ (pending ++ tail)) ∧
          (before ++ pending).length < word.before.length := by
  constructor
  · intro found
    by_cases within : word.before.length ≤ (before ++ pending).length
    · have same := found.1.eq_pending covered stops found.2 within
      have nonempty := found.1.nonempty
      rw [same] at nonempty
      exact Or.inl ⟨nonempty, same⟩
    · exact Or.inr ⟨found.1, Nat.not_le.mp within⟩
  · intro found
    rcases found with ⟨nonempty, same⟩ | ⟨isIn, beyond⟩
    · rw [same]
      exact ⟨IsIn.ofPending nonempty covered noneBefore stops, Nat.le_refl _⟩
    · rw [List.length_append] at beyond
      exact ⟨isIn, by omega⟩

end Word.IsIn

/-- The words from a run on that is being read are the words that begin there or later. -/
theorem mem_wordsBehind_iff
    {before pending : List Char} (text : List Char) (word : Word)
    (covered : CharClass.word.Covers pending)
    (noneBefore : before.getLast?.any isWordCharacter = false) :
    word ∈ wordsBehind before pending text ↔
      word.IsIn (before ++ (pending ++ text)) ∧ before.length ≤ word.before.length := by
  induction text generalizing before pending with
  | nil =>
      rw [wordsBehind, Word.mem_finished_iff,
        Word.IsIn.iff_behind covered noneBefore (CharClass.stops_nil _)]
      constructor
      · exact Or.inl
      · intro found
        rcases found with isPending | ⟨isIn, beyond⟩
        · exact isPending
        · obtain ⟨after, division, _⟩ := isIn.noneBehind
          have counted := congrArg List.length division
          simp only [List.length_append, List.length_nil] at counted beyond
          omega
  | cons head rest inductionHypothesis =>
      rw [wordsBehind]
      by_cases isWord : isWordCharacter head = true
      · have longer : CharClass.word.Covers (pending ++ [head]) := by
          simp [covered, CharClass.contains, isWord]
        rw [if_pos isWord, inductionHypothesis longer noneBefore]
        simp only [List.append_assoc, List.singleton_append]
      · have notWord : isWordCharacter head = false := by
          simpa using isWord
        have stops : CharClass.word.Stops (head :: rest) :=
          (CharClass.stops_cons_iff _ _ _).mpr notWord
        have noneBehind :
            (before ++ (pending ++ [head])).getLast?.any isWordCharacter = false := by
          rw [← List.append_assoc, List.getLast?_concat, Option.any_some, notWord]
        have found := inductionHypothesis (CharClass.covers_nil _) noneBehind
        have sameText :
            before ++ (pending ++ [head]) ++ ([] ++ rest) =
              before ++ (pending ++ head :: rest) := by
          simp
        have sameLength :
            (before ++ (pending ++ [head])).length = (before ++ pending).length + 1 := by
          rw [← List.append_assoc, List.length_append, List.length_singleton]
        rw [if_neg isWord, List.mem_append, Word.mem_finished_iff, found, sameText, sameLength,
          Word.IsIn.iff_behind covered noneBefore stops, Nat.succ_le_iff]

/-- The words that are found are all runs of word characters that cannot be made longer. -/
theorem mem_words_iff (text : List Char) (word : Word) : word ∈ words text ↔ word.IsIn text := by
  rw [words, mem_wordsBehind_iff text word (CharClass.covers_nil _) rfl]
  simp

/-! ## The order of words -/

theorem pairwise_wordsBehind
    {before pending : List Char} (text : List Char)
    (covered : CharClass.word.Covers pending)
    (noneBefore : before.getLast?.any isWordCharacter = false) :
    (wordsBehind before pending text).Pairwise fun first second =>
      first.before.length < second.before.length := by
  have single : ∀ (before pending : List Char) (relation : Word → Word → Prop),
      (Word.finished before pending).Pairwise relation := by
    intro before pending relation
    unfold Word.finished
    split <;> simp
  induction text generalizing before pending with
  | nil => exact single _ _ _
  | cons head rest inductionHypothesis =>
      rw [wordsBehind]
      by_cases isWord : isWordCharacter head = true
      · have longer : CharClass.word.Covers (pending ++ [head]) := by
          simp [covered, CharClass.contains, isWord]
        rw [if_pos isWord]
        exact inductionHypothesis longer noneBefore
      · have noneBehind :
            (before ++ (pending ++ [head])).getLast?.any isWordCharacter = false := by
          rw [← List.append_assoc, List.getLast?_concat, Option.any_some]
          simpa using isWord
        rw [if_neg isWord]
        apply List.pairwise_append.mpr
        refine ⟨single _ _ _, inductionHypothesis (CharClass.covers_nil _) noneBehind, ?_⟩
        intro first inFirst second inSecond
        have reached :=
          ((mem_wordsBehind_iff rest second (CharClass.covers_nil _) noneBehind).mp inSecond).2
        rw [((Word.mem_finished_iff _ _ _).mp inFirst).2]
        simp only [List.length_append, List.length_singleton] at reached
        change before.length < second.before.length
        omega

/-- The words are listed in the order in which they begin. -/
theorem pairwise_words (text : List Char) :
    (words text).Pairwise fun first second => first.before.length < second.before.length :=
  pairwise_wordsBehind text (CharClass.covers_nil _) rfl

theorem pairwise_start_words (text : List Char) :
    (words text).Pairwise fun first second => first.start < second.start := by
  apply (pairwise_words text).imp_of_mem
  intro first second inFirst inSecond shorter
  obtain ⟨_, division, _⟩ := ((mem_words_iff text first).mp inFirst).noneBehind
  obtain ⟨_, laterDivision, _⟩ := ((mem_words_iff text second).mp inSecond).noneBehind
  have isPrefix : first.before <+: second.before :=
    List.prefix_of_prefix_length_le ⟨_, division.symm⟩ ⟨_, laterDivision.symm⟩
      (Nat.le_of_lt shorter)
  exact length_bytes_lt_of_prefix isPrefix shorter

end SourceCritic.Text
