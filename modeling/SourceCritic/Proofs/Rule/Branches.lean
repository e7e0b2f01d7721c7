import Mathlib
import SourceCritic.Proofs.Rule.Enclosure
import SourceCritic.Proofs.Text.Words

/-!
# Branches as words

The function rule searches a body for each of the words that begin a branch, one search after the
other.  A single pass over the words of the body finds the same number of branches.  The words of
the whole text will do as well, if only those are counted that lie between the beginning of the
declaration and the brace that ends its body.  Cutting the body out of the text could only change
the words at its ends: the first one is `function` or the end of a longer word, neither of which
begins a branch, and behind the last one there is a brace.
-/

namespace SourceCritic.Rule.Functions

open Text (Word bytes bytes_append words mem_words_iff)

/-- Whether a word begins a branch. -/
def beginsBranch (word : Word) : Bool :=
  decide (word.characters ∈ branchBeginnings.map String.toList)

/-- Whether a word lies between the beginning of a declaration and the end of its body. -/
def Site.holds (site : Site) (word : Word) : Bool :=
  decide (site.start ≤ word.start ∧ word.stop ≤ site.stop)

/-! ## One search for each word, and one pass for all of them -/

section WholeWord

variable {word : List Char} (nonempty : word ≠ []) (covered : CharClass.word.Covers word)

include nonempty covered

private theorem isWholeWord_iff_exists_word (text : List Char) (start : Nat) :
    isWholeWord word (text.take start) (text.drop start) = true ↔
      ∃ found ∈ words text, found.characters = word ∧ found.before.length = start := by
  simp only [isWholeWord, Bool.and_eq_true, Bool.not_eq_true', List.isPrefixOf_iff_prefix]
  constructor
  · intro alone
    obtain ⟨⟨⟨after, division⟩, noneBefore⟩, noneBehind⟩ := alone
    have within : start ≤ text.length := by
      have positive := List.length_pos_of_ne_nil nonempty
      have counted := congrArg List.length division
      rw [List.length_append, List.length_drop] at counted
      omega
    have whole : text = text.take start ++ (word ++ after) := by
      rw [division, List.take_append_drop]
    rw [← division, List.drop_left] at noneBehind
    refine ⟨⟨text.take start, word⟩, ?_, rfl, List.length_take_of_le within⟩
    apply (mem_words_iff _ _).mpr
    exact ⟨nonempty, covered, noneBefore, after, whole, noneBehind⟩
  · intro found
    obtain ⟨⟨before, characters⟩, member, sameCharacters, sameLength⟩ := found
    have isIn := (mem_words_iff _ _).mp member
    obtain ⟨after, division, noneBehind⟩ := isIn.noneBehind
    simp only at sameCharacters sameLength division
    rw [← sameLength, ← sameCharacters, division, List.take_left, List.drop_left, List.drop_left]
    exact ⟨⟨List.prefix_append _ _, isIn.noneBefore⟩, noneBehind⟩

theorem wholeWordCount_eq_countP (text : List Char) :
    wholeWordCount word text =
      (words text).countP fun found => decide (found.characters = word) := by
  have starts :
      ((words text).filter fun found => decide (found.characters = word)).map
          (fun found => found.before.length) =
        (List.range (text.length + 1)).filter fun start =>
          isWholeWord word (text.take start) (text.drop start) := by
    apply List.Pairwise.eq_of_mem_iff (r := (· < ·))
    · apply List.pairwise_map.mpr
      exact (Text.pairwise_words text).filter _
    · exact List.pairwise_lt_range.filter _
    · intro start
      rw [List.mem_filter, isWholeWord_iff_exists_word nonempty covered, List.mem_range,
        List.mem_map]
      simp only [List.mem_filter, decide_eq_true_eq]
      constructor
      · intro found
        obtain ⟨word, ⟨member, sameCharacters⟩, sameLength⟩ := found
        obtain ⟨_, division, _⟩ := ((mem_words_iff _ _).mp member).noneBehind
        have counted := congrArg List.length division
        rw [List.length_append] at counted
        exact ⟨by omega, word, member, sameCharacters, sameLength⟩
      · intro found
        obtain ⟨_, word, member, sameCharacters, sameLength⟩ := found
        exact ⟨word, ⟨member, sameCharacters⟩, sameLength⟩
  have counted := congrArg List.length starts
  rw [List.length_map] at counted
  rw [wholeWordCount, List.countP_eq_length_filter, List.countP_eq_length_filter, counted]

end WholeWord

section Keys

variable {α β : Type} [DecidableEq β] (items : List α) (key : α → β)

private theorem countP_mem_cons {first : β} {later : List β} (absent : first ∉ later) :
    (items.countP fun item => decide (key item ∈ first :: later)) =
      (items.countP fun item => decide (key item = first)) +
        items.countP fun item => decide (key item ∈ later) := by
  induction items with
  | nil => rfl
  | cons item rest inductionHypothesis =>
      rw [List.countP_cons, List.countP_cons, List.countP_cons, inductionHypothesis]
      by_cases isFirst : key item = first
      · simp [isFirst, absent]
        omega
      · simp [isFirst]
        omega

/-- Things are counted key by key or all at once. -/
private theorem sum_countP_eq_countP_mem {keys : List β} (distinct : keys.Nodup) :
    (keys.map fun sought => items.countP fun item => decide (key item = sought)).sum =
      items.countP fun item => decide (key item ∈ keys) := by
  induction keys with
  | nil => simp
  | cons first later inductionHypothesis =>
      obtain ⟨absent, laterDistinct⟩ := List.nodup_cons.mp distinct
      rw [List.map_cons, List.sum_cons, inductionHypothesis laterDistinct,
        countP_mem_cons items key absent]

end Keys

/-- The searches for the single words count each word with which a branch begins once. -/
theorem branchCount_eq_countP (text : List Char) :
    branchCount text = (words text).countP beginsBranch := by
  have sameCounts :
      ∀ word ∈ branchBeginnings,
        wholeWordCount word.toList text =
          (words text).countP fun found => decide (found.characters = word.toList) := by
    intro word member
    obtain ⟨nonempty, covered⟩ := covers_word_of_mem_branchWords member
    exact wholeWordCount_eq_countP nonempty covered text
  have distinct : (branchBeginnings.map String.toList).Nodup := by
    decide
  have counted := sum_countP_eq_countP_mem (words text) Word.characters distinct
  rw [List.map_map] at counted
  rw [branchCount, List.map_congr_left sameCounts]
  apply counted.trans
  apply List.countP_congr
  intro word _
  simp [beginsBranch]

/-! ## Words of a body and words of the text around it -/

section Body

variable {before body after : List Char}

/-- A word of a text that lies in a part of it is a word of that part. -/
theorem exists_word_of_within
    {word : Word} (isIn : word.IsIn (before ++ (body ++ after)))
    (reached : (bytes before).length ≤ word.start)
    (within : word.stop ≤ (bytes (before ++ body)).length) :
    ∃ inner : Word,
      inner.IsIn body ∧ inner.characters = word.characters ∧
        word.before = before ++ inner.before := by
  obtain ⟨rest, division, noneBehind⟩ := isIn.noneBehind
  obtain ⟨front, beforeShape, bodyDivision⟩ :=
    Text.exists_of_length_bytes_le division reached
  obtain ⟨later, bodyShape, restShape⟩ :
      ∃ later, body = (front ++ word.characters) ++ later ∧ rest = later ++ after := by
    have regrouped : (front ++ word.characters) ++ rest = body ++ after := by
      rw [bodyDivision, List.append_assoc]
    have shorter : (bytes (front ++ word.characters)).length ≤ (bytes body).length := by
      rw [Word.stop, beforeShape, List.append_assoc, bytes_append before,
        bytes_append before] at within
      simp only [List.length_append] at within
      omega
    exact Text.exists_of_length_bytes_le regrouped shorter
  refine ⟨⟨front, word.characters⟩, ⟨isIn.nonempty, isIn.covered, ?_, ?_⟩, rfl, beforeShape⟩
  · have noneBefore := isIn.noneBefore
    rcases List.eq_nil_or_concat front with rfl | ⟨start, edge, rfl⟩
    · rfl
    · rw [beforeShape, List.concat_eq_append, ← List.append_assoc, List.getLast?_concat]
        at noneBefore
      rw [List.concat_eq_append, List.getLast?_concat]
      exact noneBefore
  · refine ⟨later, by rw [bodyShape, List.append_assoc], ?_⟩
    cases later with
    | nil => rfl
    | cons head tail =>
        rw [restShape, List.cons_append] at noneBehind
        exact noneBehind

variable (before) in
/-- A word of a part of a text that does not begin with that part is a word of the text, if no word
character follows the part. -/
theorem isIn_of_inner
    {inner : Word} (isIn : inner.IsIn body)
    (notFirst : inner.before ≠ [])
    (edge : after.head?.any Text.isWordCharacter = false) :
    Word.IsIn (before ++ (body ++ after))
      { before := before ++ inner.before, characters := inner.characters } := by
  obtain ⟨rest, rfl, noneBehind⟩ := isIn.noneBehind
  refine ⟨isIn.nonempty, isIn.covered, ?_, rest ++ after, by simp, ?_⟩
  · change (before ++ inner.before).getLast?.any Text.isWordCharacter = false
    rw [List.getLast?_append_of_ne_nil _ notFirst]
    exact isIn.noneBefore
  · cases rest with
    | nil => exact edge
    | cons head tail => exact noneBehind

end Body

/-- The first word of a declaration does not begin a branch. -/
private theorem before_ne_nil_of_beginsBranch
    {text : List Char} {site : Site} (isIn : site.IsIn text)
    {word : Word} (inBody : word.IsIn site.body) (begins : beginsBranch word = true) :
    word.before ≠ [] := by
  intro isFirst
  rw [beginsBranch, decide_eq_true_eq, List.mem_map] at begins
  obtain ⟨sought, member, sameCharacters⟩ := begins
  obtain ⟨nonempty, covered⟩ := covers_word_of_mem_branchWords member
  obtain ⟨rest, bodyShape⟩ := isIn.begins
  have alone :=
    (isWholeWord_iff_exists_word nonempty covered site.body 0).mpr
      ⟨word, (mem_words_iff _ _).mpr inBody, sameCharacters.symm, by rw [isFirst]; rfl⟩
  rw [List.take_zero, List.drop_zero, bodyShape, isWholeWord_declaration member rest] at alone
  cases alone

private theorem Site.IsIn.exists_closing
    {text : List Char} {site : Site} (isIn : site.IsIn text) :
    ∃ rest, text = site.before ++ (site.body ++ '}' :: rest) := by
  obtain ⟨_, _, _, shape, _⟩ := isIn.declared
  obtain ⟨rest, division, _⟩ := (body?_eq_some_iff _ _).mp isIn.bodied
  refine ⟨rest, ?_⟩
  rw [← division, shape, List.drop_left]

/-- A word that begins a branch in the body of a declaration is a word of the text and lies in the
declaration. -/
theorem Site.IsIn.holds_branch
    {text : List Char} {site : Site} (isIn : site.IsIn text)
    {inner : Word} (innerIsIn : inner.IsIn site.body) (begins : beginsBranch inner = true) :
    Word.IsIn text { inner with before := site.before ++ inner.before } ∧
      site.holds { inner with before := site.before ++ inner.before } = true := by
  obtain ⟨rest, textShape⟩ := isIn.exists_closing
  constructor
  · have notFirst := before_ne_nil_of_beginsBranch isIn innerIsIn begins
    have brace : ('}' :: rest).head?.any Text.isWordCharacter = false := by
      rw [List.head?_cons]
      decide
    rw [textShape]
    exact isIn_of_inner site.before innerIsIn notFirst brace
  · obtain ⟨after, bodyShape, _⟩ := innerIsIn.noneBehind
    rw [Site.holds, decide_eq_true_eq]
    constructor
    · rw [Site.start, Word.start, bytes_append, List.length_append]
      omega
    · rw [Site.stop, Word.stop, bodyShape]
      simp only [bytes_append, List.length_append]
      omega

/-- The branches of a body are as many as the words of the text that a declaration holds. -/
theorem countP_words_body
    {text : List Char} {site : Site} (isIn : site.IsIn text) :
    (words text).countP (fun word => site.holds word && beginsBranch word) =
      (words site.body).countP beginsBranch := by
  have starts :
      ((words text).filter fun word => site.holds word && beginsBranch word).map
          (fun word => word.before.length) =
        ((words site.body).filter beginsBranch).map
          fun word => site.before.length + word.before.length := by
    apply List.Pairwise.eq_of_mem_iff (r := (· < ·))
    · apply List.pairwise_map.mpr
      exact (Text.pairwise_words text).filter _
    · apply List.pairwise_map.mpr
      apply ((Text.pairwise_words site.body).filter _).imp
      intro first second less
      omega
    · intro start
      simp only [List.mem_map, List.mem_filter, mem_words_iff, Bool.and_eq_true]
      constructor
      · intro found
        obtain ⟨word, ⟨wordIsIn, held, begins⟩, sameStart⟩ := found
        obtain ⟨rest, textShape⟩ := isIn.exists_closing
        rw [textShape] at wordIsIn
        rw [Site.holds, decide_eq_true_eq] at held
        obtain ⟨inner, innerIsIn, sameCharacters, beforeShape⟩ :=
          exists_word_of_within wordIsIn held.1 held.2
        rw [beginsBranch, ← sameCharacters] at begins
        rw [beforeShape, List.length_append] at sameStart
        exact ⟨inner, ⟨innerIsIn, begins⟩, sameStart⟩
      · intro found
        obtain ⟨inner, ⟨innerIsIn, begins⟩, sameStart⟩ := found
        obtain ⟨wordIsIn, held⟩ := isIn.holds_branch innerIsIn begins
        refine ⟨_, ⟨wordIsIn, held, begins⟩, ?_⟩
        rw [List.length_append]
        exact sameStart
  have counted := congrArg List.length starts
  rw [List.length_map, List.length_map] at counted
  rw [List.countP_eq_length_filter, List.countP_eq_length_filter, counted]

/-- The complexity of a body is one more than the number of its words that begin a branch, where the
words are all runs of word characters that cannot be made longer.  For the body of a declaration it
makes no difference to count those words of the whole text that lie in the body. -/
theorem complexity_counts_words (body text : List Char) :
    (∀ word, word ∈ words body ↔ word.IsIn body) ∧
      ((words body).Pairwise fun first second => first.start < second.start) ∧
      complexity body = 1 + (words body).countP beginsBranch ∧
      ∀ site : Site, site.IsIn text →
        complexity site.body =
          1 + (words text).countP fun word => site.holds word && beginsBranch word := by
  refine ⟨mem_words_iff body, Text.pairwise_start_words body, ?_, ?_⟩
  · rw [complexity_eq, branchCount_eq_countP]
  · intro site isIn
    rw [complexity_eq, branchCount_eq_countP, countP_words_body isIn]

/-! ## A declaration within a longer word -/

/-- A declaration whose first word is the end of a longer one, with letters next to its branches
that are no word characters. -/
def accented : Site where
  before := "if x".toList
  name := "a".toList
  body := "function a()\x7béif ifs else".toList

/-- A text that goes on with a branch behind the declaration. -/
def accentedText : List Char :=
  accented.before ++ (accented.body ++ "\x7dif".toList)

private theorem isIn_accented : accented.IsIn accentedText :=
  ⟨⟨[' '], [], accentedText.drop 15, by decide⟩, by decide⟩

/-- Of the words of the text, `if` and `else` within the declaration are counted. -/
theorem complexity_counts_words_accented :
    accented.IsIn accentedText ∧ complexity accented.body = 3 ∧
      (words accentedText).countP (fun word => accented.holds word && beginsBranch word) = 2 := by
  obtain ⟨_, _, _, ofSites⟩ := complexity_counts_words [] accentedText
  have counted := ofSites accented isIn_accented
  have measured : complexity accented.body = 3 := by
    decide +kernel
  rw [measured] at counted
  exact ⟨isIn_accented, measured, by omega⟩

end SourceCritic.Rule.Functions
