import Mathlib
import SourceCritic.Proofs.Text.Bytes
import SourceCritic.Yaml.Token.Stream

/-!
# Simple scalars

Scalars of two simple forms: a word of lower case letters, digits and underscores, which needs no
quotes, and any printable ASCII text between double quotes, in which quotes and backslashes are
escaped.  Both are read as the text that they stand for, whatever follows them.
-/

namespace SourceCritic.Yaml

/-! ## Characters -/

/-- A character of a word. -/
def IsWordCharacter (character : Char) : Prop :=
  ('a' ≤ character ∧ character ≤ 'z') ∨ ('0' ≤ character ∧ character ≤ '9') ∨ character = '_'

instance (character : Char) : Decidable (IsWordCharacter character) :=
  inferInstanceAs (Decidable (_ ∨ _ ∨ _))

/-- A printable ASCII character. -/
def IsPrintable (character : Char) : Prop :=
  0x20 ≤ character.toNat ∧ character.toNat ≤ 0x7E

instance (character : Char) : Decidable (IsPrintable character) :=
  inferInstanceAs (Decidable (_ ∧ _))

/-- A text of one or more word characters. -/
structure IsWord (text : List Char) : Prop where
  nonempty : text ≠ []
  characters : ∀ character ∈ text, IsWordCharacter character

/-- A text that begins with a character which neither is white space nor begins a comment, or is at
its end. -/
def IsSolid (text : List Char) : Prop :=
  ∀ head ∈ text.head?, isBlank head = false ∧ isBreak head = false ∧ head ≠ '#' ∧ head ≠ '\uFEFF'

instance (text : List Char) : Decidable (IsSolid text) :=
  inferInstanceAs (Decidable (∀ head ∈ text.head?, _))

theorem IsWordCharacter.ne
    {character : Char} (isWord : IsWordCharacter character) (other : Char)
    (notWord : ¬ IsWordCharacter other) :
    character ≠ other := by
  rintro rfl
  exact notWord isWord

theorem IsWordCharacter.isPrintable
    {character : Char} (isWord : IsWordCharacter character) : IsPrintable character := by
  have bounds {least most : Char} (between : least ≤ character ∧ character ≤ most) :
      least.toNat ≤ character.toNat ∧ character.toNat ≤ most.toNat :=
    between
  rcases isWord with letter | digit | rfl
  · have := bounds letter
    exact ⟨Nat.le_trans (by decide) this.1, Nat.le_trans this.2 (by decide)⟩
  · have := bounds digit
    exact ⟨Nat.le_trans (by decide) this.1, Nat.le_trans this.2 (by decide)⟩
  · decide

theorem IsPrintable.ne
    {character : Char} (isPrintable : IsPrintable character) (other : Char)
    (notPrintable : ¬ IsPrintable other) :
    character ≠ other := by
  rintro rfl
  exact notPrintable isPrintable

theorem IsPrintable.isBreak_eq_false
    {character : Char} (isPrintable : IsPrintable character) : isBreak character = false := by
  have first := isPrintable.ne '\n' (by decide)
  have second := isPrintable.ne '\r' (by decide)
  have third := isPrintable.ne '\u0085' (by decide)
  have fourth := isPrintable.ne '\u2028' (by decide)
  have fifth := isPrintable.ne '\u2029' (by decide)
  simp [isBreak, first, second, third, fourth, fifth]

theorem IsWordCharacter.isBlank_eq_false
    {character : Char} (isWord : IsWordCharacter character) : isBlank character = false := by
  have notSpace := isWord.ne ' ' (by decide)
  have notTab := isWord.ne '\t' (by decide)
  simp [isBlank, notSpace, notTab]

theorem isSolid_cons
    {head : Char}
    (solid : isBlank head = false ∧ isBreak head = false ∧ head ≠ '#' ∧ head ≠ '\uFEFF')
    (rest : List Char) : IsSolid (head :: rest) := by
  intro character same
  obtain rfl := Option.some.inj same
  exact solid

theorem IsWordCharacter.isSolid
    {head : Char} (isWord : IsWordCharacter head) (rest : List Char) : IsSolid (head :: rest) :=
  isSolid_cons
    ⟨isWord.isBlank_eq_false, isWord.isPrintable.isBreak_eq_false, isWord.ne _ (by decide),
      isWord.ne _ (by decide)⟩
    rest

theorem IsWordCharacter.not_startsDocumentMark
    {head : Char} (isWord : IsWordCharacter head) (column : Nat) (rest : List Char) :
    startsDocumentMark column (head :: rest) = false := by
  unfold startsDocumentMark
  split
  · rename_i same
    exact absurd (List.cons.inj same).1 (isWord.ne '-' (by decide))
  · rename_i same
    exact absurd (List.cons.inj same).1 (isWord.ne '.' (by decide))
  · simp

/-- A word character is none of some characters that cannot be part of a word. -/
theorem IsWordCharacter.not_contains
    {head : Char} (isWord : IsWordCharacter head) {others : List Char}
    (noneInWords : ∀ other ∈ others, ¬ IsWordCharacter other) :
    others.contains head = false := by
  rw [Bool.eq_false_iff, Ne, List.contains_iff_mem]
  exact fun member => noneInWords head member isWord

/-! ## Bytes -/

/-- A character of which simple texts consist. -/
def IsSimple (character : Char) : Prop :=
  IsPrintable character ∨ character = '\n'

theorem IsSimple.isAscii {character : Char} (isSimple : IsSimple character) :
    Text.IsAscii character := by
  rcases isSimple with printable | rfl
  · exact Nat.lt_of_le_of_lt printable.2 (by decide)
  · decide

theorem IsSimple.isAllowed {character : Char} (isSimple : IsSimple character) :
    isAllowed character.toNat = true := by
  rcases isSimple with printable | rfl
  · simp [Yaml.isAllowed, printable.1, printable.2]
  · decide

private theorem finish_of_isSimple {character : Char} (isSimple : IsSimple character)
    (offset read : Nat) :
    Partial.finish { offset, width := 1, read, value := character.toNat } = .ok character := by
  have small : character.toNat < 0x80 :=
    isSimple.isAscii
  have notSurrogate :
      ((0xD800 ≤ character.toNat && character.toNat ≤ 0xDFFF) ||
        decide (character.toNat > 0x10FFFF)) = false := by
    simp
    omega
  simp [Partial.finish, hasRightLength, notSurrogate, isSimple.isAllowed, Char.ofNat_toNat]

private theorem decodeFrom_bytes
    {text : List Char} (areSimple : ∀ character ∈ text, IsSimple character)
    (offset : Nat) (decoded : List Char) :
    decodeFrom offset none decoded (Text.bytes text) = .ok (decoded.reverse ++ text) := by
  induction text generalizing offset decoded with
  | nil => simp [decodeFrom]
  | cons head rest inductionHypothesis =>
      rw [List.forall_mem_cons] at areSimple
      have isAscii := areSimple.1.isAscii
      have leading :
          leadingBits (Text.asciiByte head) = some (1, head.toNat) := by
        have small : Text.asciiByte head < 0x80 := by
          rw [UInt8.lt_iff_toNat_lt, Text.toNat_asciiByte isAscii]
          exact isAscii
        rw [leadingBits, if_pos small, Text.toNat_asciiByte isAscii]
      rw [Text.bytes_cons_of_isAscii isAscii, decodeFrom]
      simp only [leading, finish_of_isSimple areSimple.1, Nat.sub_self, List.take_zero,
        List.length_nil, Nat.lt_irrefl, if_false, if_true]
      rw [inductionHypothesis areSimple.2, List.reverse_cons, List.append_assoc,
        List.singleton_append]

/-- Simple characters are read as they are written. -/
theorem decode_bytes {text : List Char} (areSimple : ∀ character ∈ text, IsSimple character) :
    decode (Text.bytes text) = .ok text := by
  rw [decode, decodeFrom_bytes areSimple, List.reverse_nil, List.nil_append]

/-! ## Quoted scalars -/

/-- A character of a text as it is written between double quotes. -/
def escaped (character : Char) : List Char :=
  if character = '"' ∨ character = '\\' then ['\\', character] else [character]

/-- A text between double quotes. -/
def quoted (text : List Char) : List Char :=
  '"' :: (text.flatMap escaped ++ ['"'])

/-- What has been read of a quoted scalar in one line, of which the white space at the end has not
been made part of the text. -/
structure Quoted.IsReading (state : Quoted.State) (read : List Char) : Prop where
  text : state.text.reverse ++ state.gap.blanks = read
  unbroken : state.gap.broken = false
  noCode : state.code = none

theorem Quoted.IsReading.close {state : Quoted.State} {read : List Char}
    (isReading : IsReading state read) :
    state.close = { text := read.reverse, gap := .none, code := none } := by
  obtain ⟨rfl, unbroken, noCode⟩ := isReading
  simp [State.close, Gap.text, unbroken, noCode]

namespace Quoted

section Steps

variable {state : State} {read : List Char} {mark : Mark}

theorem IsReading.addBlank (isReading : IsReading state read) :
    IsReading { state with gap := state.gap.addBlank ' ' } (read ++ [' ']) := by
  obtain ⟨rfl, unbroken, noCode⟩ := isReading
  refine ⟨?_, ?_, noCode⟩
  · simp [Gap.addBlank, unbroken]
  · simp [Gap.addBlank, unbroken]

private theorem isReading_push (read : List Char) (next : Char) :
    IsReading { text := next :: read.reverse, gap := .none, code := none } (read ++ [next]) := by
  refine ⟨?_, rfl, rfl⟩
  simp [Gap.none]

theorem not_startsDocumentMark (within : mark.column ≠ 0) (text : List Char) :
    startsDocumentMark mark.column text = false := by
  simp [startsDocumentMark, within]

private theorem scanFrom_blank (isReading : IsReading state read) (began : Mark)
    (rest : List Char) :
    scanFrom false began state mark (' ' :: rest) =
      scanFrom false began { state with gap := state.gap.addBlank ' ' } (mark.advance 1) rest := by
  rw [scanFrom]
  simp only [isReading.noCode]
  rfl

private theorem scanFrom_escaped
    {next : Char} (special : next = '"' ∨ next = '\\') (isReading : IsReading state read)
    (began : Mark) (within : mark.column ≠ 0) (rest : List Char) :
    scanFrom false began state mark ('\\' :: next :: rest) =
      scanFrom false began { text := next :: read.reverse, gap := .none, code := none }
        (mark.advance 2) rest := by
  rw [scanFrom]
  have backslash : isBlank '\\' = false ∧ isBreak '\\' = false := by decide
  simp only [isReading.noCode, backslash, not_startsDocumentMark within, isReading.close]
  rcases special with rfl | rfl <;> rfl

private theorem scanFrom_plain
    {next : Char} (isPrintable : IsPrintable next) (notBlank : next ≠ ' ') (notQuote : next ≠ '"')
    (notBackslash : next ≠ '\\') (isReading : IsReading state read) (began : Mark)
    (within : mark.column ≠ 0) (rest : List Char) :
    scanFrom false began state mark (next :: rest) =
      scanFrom false began { text := next :: read.reverse, gap := .none, code := none }
        (mark.advance 1) rest := by
  have notTab := isPrintable.ne '\t' (by decide)
  have blank : isBlank next = false := by
    simp [isBlank, notBlank, notTab]
  rw [scanFrom]
  simp only [isReading.noCode, blank, isPrintable.isBreak_eq_false,
    not_startsDocumentMark within, isReading.close, notQuote, notBackslash, Bool.false_eq_true,
    if_false]
  rfl

private theorem scanFrom_quote (isReading : IsReading state read) (began : Mark)
    (within : mark.column ≠ 0) (rest : List Char) :
    scanFrom false began state mark ('"' :: rest) =
      .ok (read, { rest, mark := mark.advance 1 }) := by
  have quote : isBlank '"' = false ∧ isBreak '"' = false := by decide
  rw [scanFrom]
  simp only [isReading.noCode, quote, not_startsDocumentMark within, isReading.close,
    Bool.false_eq_true, if_false, if_true, List.reverse_reverse]

end Steps

private theorem isReading_start : IsReading .start [] :=
  ⟨rfl, rfl, rfl⟩

/-- The text of a quoted scalar is read up to the quote at its end. -/
theorem scanFrom_append
    {text : List Char} (arePrintable : ∀ character ∈ text, IsPrintable character)
    {state : State} {read : List Char} (isReading : IsReading state read)
    (began : Mark) {mark : Mark} (within : mark.column ≠ 0) (rest : List Char) :
    ∃ after,
      scanFrom false began state mark (text.flatMap escaped ++ '"' :: rest) =
        .ok (read ++ text, { rest, mark := after }) := by
  induction text generalizing state read mark with
  | nil =>
      rw [List.append_nil]
      exact ⟨_, scanFrom_quote isReading began within rest⟩
  | cons head later inductionHypothesis =>
      rw [List.forall_mem_cons] at arePrintable
      have further (count : Nat) : (mark.advance count).column ≠ 0 := by
        have : (mark.advance count).column = mark.column + count := rfl
        omega
      have joined : read ++ head :: later = (read ++ [head]) ++ later := by
        simp
      rw [List.flatMap_cons, List.append_assoc, joined]
      by_cases special : head = '"' ∨ head = '\\'
      · rw [escaped, if_pos special, List.cons_append, List.singleton_append,
          scanFrom_escaped special isReading began within]
        exact inductionHypothesis arePrintable.2 (isReading_push read head) (further 2)
      · rw [escaped, if_neg special, List.singleton_append]
        by_cases blank : head = ' '
        · subst blank
          rw [scanFrom_blank isReading]
          exact inductionHypothesis arePrintable.2 isReading.addBlank (further 1)
        · rw [not_or] at special
          rw [scanFrom_plain arePrintable.1 blank special.1 special.2 isReading began within]
          exact inductionHypothesis arePrintable.2 (isReading_push read head) (further 1)

/-- A quoted text is read as a scalar. -/
theorem scan_quoted
    {text : List Char} (arePrintable : ∀ character ∈ text, IsPrintable character)
    (mark : Mark) (rest : List Char) :
    ∃ token after,
      scan false { rest := quoted text ++ rest, mark } = .ok (token, { rest, mark := after }) ∧
        token.kind = .scalar .doubleQuoted text := by
  have shape : (quoted text ++ rest).drop 1 = text.flatMap escaped ++ '"' :: rest := by
    simp [quoted]
  have within : (mark.advance 1).column ≠ 0 :=
    Nat.succ_ne_zero _
  obtain ⟨after, scanned⟩ := scanFrom_append arePrintable isReading_start mark within rest
  simp only [scan, shape, scanned, List.nil_append]
  exact ⟨_, _, rfl, rfl⟩

end Quoted

/-! ## Words -/

/-- The end of a line: the end of the text, or a line break.  The flag tells whether the line is
broken, and the text behind that is what goes on. -/
inductive EndsLine : List Char → Bool → List Char → Prop where
  | ofText : EndsLine [] false []
  | ofBreak {more : List Char} : IsSolid more → EndsLine ('\n' :: more) true more

theorem EndsLine.isSolid
    {rest more : List Char} {broken : Bool} (ends : EndsLine rest broken more) : IsSolid more := by
  cases ends with
  | ofText => exact nofun
  | ofBreak isSolid => exact isSolid

theorem EndsLine.length_le
    {rest more : List Char} {broken : Bool} (ends : EndsLine rest broken more) :
    more.length ≤ rest.length := by
  cases ends with
  | ofText => exact Nat.le_refl _
  | ofBreak isSolid => exact Nat.le_succ _

namespace Plain

private theorem scanFrom_wordCharacter
    {head : Char} (isWord : IsWordCharacter head) (indent : Int) (began last mark : Mark)
    (read rest : List Char) :
    scanFrom false indent began { text := read, gap := .none, paused := false, last } mark
        (head :: rest) =
      scanFrom false indent began
        { text := head :: read, gap := .none, paused := false, last := mark.advance 1 }
        (mark.advance 1) rest := by
  have notColon := isWord.ne ':' (by decide)
  rw [scanFrom]
  simp [isWord.isBlank_eq_false, isWord.isPrintable.isBreak_eq_false,
    isWord.not_startsDocumentMark, notColon, Gap.text, Gap.none]

/-- A word is read up to what stands behind it. -/
theorem scanFrom_word
    {word : List Char} (areWord : ∀ character ∈ word, IsWordCharacter character)
    (indent : Int) (began last mark : Mark) (read rest : List Char) :
    ∃ behind,
      scanFrom false indent began { text := read, gap := .none, paused := false, last } mark
          (word ++ rest) =
        scanFrom false indent began
          { text := word.reverse ++ read, gap := .none, paused := false, last := behind }
          (mark.advance word.length) rest := by
  induction word generalizing last mark read with
  | nil => exact ⟨last, rfl⟩
  | cons head later inductionHypothesis =>
      rw [List.forall_mem_cons] at areWord
      obtain ⟨behind, scanned⟩ :=
        inductionHypothesis areWord.2 (mark.advance 1) (mark.advance 1) (head :: read)
      have further :
          (mark.advance 1).advance later.length = mark.advance (head :: later).length := by
        simp only [Mark.advance, List.length_cons, Mark.mk.injEq, true_and]
        omega
      refine ⟨behind, ?_⟩
      rw [List.cons_append, scanFrom_wordCharacter areWord.1, scanned, further, List.reverse_cons,
        List.append_assoc, List.singleton_append]

/-- A word in front of a colon is read up to the colon. -/
theorem scan_key
    {word : List Char} (areWord : ∀ character ∈ word, IsWordCharacter character)
    (indent : Int) (mark : Mark) (rest : List Char) :
    ∃ last,
      scan false indent { rest := word ++ ':' :: ' ' :: rest, mark } =
        .ok
          { text := word
            last
            broken := false
            after := { rest := ':' :: ' ' :: rest, mark := mark.advance word.length } } := by
  obtain ⟨last, scanned⟩ :=
    scanFrom_word areWord indent mark mark mark [] (':' :: ' ' :: rest)
  refine ⟨last, ?_⟩
  rw [scan, scanned, scanFrom]
  simp [isBlank, isBreak, startsDocumentMark, startsBlank, State.finish, Gap.none]

/-- A scalar ends in front of a line that is not indented. -/
theorem scanFrom_newLine
    {more : List Char} (isSolid : IsSolid more) {indent : Int} (indented : 0 < indent)
    (began mark : Mark) (state : State) (paused : state.paused = true) :
    scanFrom false indent began state (mark.newLine 1) more =
      .ok (state.finish { rest := more, mark := mark.newLine 1 }) := by
  cases more with
  | nil => rw [scanFrom]
  | cons head rest =>
      obtain ⟨notBlank, notBreak, _, _⟩ := isSolid head rfl
      have outdented : (((mark.newLine 1).column : Int) < indent) := by
        simpa [Mark.newLine] using indented
      rw [scanFrom]
      simp [notBlank, notBreak, paused, outdented]

/-- A word at the end of a line is read together with the line break. -/
theorem scan_word
    {word rest more : List Char} {broken : Bool}
    (areWord : ∀ character ∈ word, IsWordCharacter character) (ends : EndsLine rest broken more)
    {indent : Int} (indented : 0 < indent) (mark : Mark) :
    ∃ last after,
      scan false indent { rest := word ++ rest, mark } =
          .ok { text := word, last, broken, after := { rest := more, mark := after } } ∧
        (broken = true → after.column = 0) := by
  obtain ⟨last, scanned⟩ := scanFrom_word areWord indent mark mark mark [] rest
  refine ⟨last, ?_⟩
  rw [scan, scanned]
  cases ends with
  | ofText =>
      refine ⟨mark.advance word.length, ?_, by simp⟩
      rw [scanFrom]
      simp [State.finish, Gap.none]
  | ofBreak isSolid =>
      refine ⟨(mark.advance word.length).newLine 1, ?_, fun _ => rfl⟩
      have isNewLine : isBlank '\n' = false ∧ isBreak '\n' = true := by decide
      rw [scanFrom]
      simp only [isNewLine, Bool.false_eq_true, if_false, if_true]
      refine (scanFrom_newLine isSolid indented mark _ _ rfl).trans ?_
      simp [State.finish, Gap.none, Gap.addBreak]

end Plain

end SourceCritic.Yaml
