import Mathlib.Data.List.Forall2
import SourceCritic.Json.Printer

/-!
# JSON documents

Which texts are JSON documents, and which value a document stands for.  The rules are those of the
format and not those of the printer: blanks may stand around every value and every mark, and a
character of a string may be written in several ways.

The main result says that whatever the printer writes is a document for the value that it was given,
in every layout that adds nothing but blanks.  Arrays and objects are never mistaken for each other,
and without a layout a document stays on one line.
-/

namespace SourceCritic.Json

/-! ## Characters, strings and numbers -/

/-- The characters that may stand around values and marks. -/
def isBlank (tested : Char) : Bool :=
  tested = ' ' || tested = '\t' || tested = '\n' || tested = '\r'

def AreBlanks (text : List Char) : Prop :=
  ∀ character ∈ text, isBlank character = true

/-- The letters that may stand behind a backslash, with the characters that they stand for. -/
def shortForms : List (Char × Char) :=
  [('"', '"'), ('\\', '\\'), ('/', '/'), ('b', '\x08'), ('f', '\x0c'), ('n', '\n'), ('r', '\r'),
    ('t', '\t')]

def hexValue? (digit : Char) : Option Nat :=
  if digit.isDigit then
    some (digit.toNat - '0'.toNat)
  else if 'a' ≤ digit ∧ digit ≤ 'f' then
    some (digit.toNat - 'a'.toNat + 10)
  else if 'A' ≤ digit ∧ digit ≤ 'F' then
    some (digit.toNat - 'A'.toNat + 10)
  else
    none

/-- Four hexadecimal digits for a number. -/
def IsCode (value : Nat) (digits : List Char) : Prop :=
  ∃ values,
    digits.mapM hexValue? = some values ∧ values.length = 4 ∧
      values.foldl (fun sofar digit => 16 * sofar + digit) 0 = value

/-- The ways of writing a character of a string: as it is, with a short form, or with its code,
which is divided in two where it has more than four digits. -/
inductive Spells : Char → List Char → Prop where
  | plain {character : Char} :
      0x20 ≤ character.toNat → character ≠ '"' → character ≠ '\\' → Spells character [character]
  | short {character letter : Char} :
      (letter, character) ∈ shortForms → Spells character ['\\', letter]
  | code {character : Char} {digits : List Char} :
      IsCode character.toNat digits → Spells character ('\\' :: 'u' :: digits)
  | pair {character : Char} {high low : List Char} :
      0x10000 ≤ character.toNat →
      IsCode (0xD800 + (character.toNat - 0x10000) / 0x400) high →
      IsCode (0xDC00 + (character.toNat - 0x10000) % 0x400) low →
      Spells character ('\\' :: 'u' :: (high ++ '\\' :: 'u' :: low))

def IsQuoted (value text : List Char) : Prop :=
  ∃ pieces, List.Forall₂ Spells value pieces ∧ text = '"' :: (pieces.flatten ++ ['"'])

/-- The digits of a natural number, without needless zeros in front. -/
structure IsNatural (value : Nat) (digits : List Char) : Prop where
  nonempty : digits ≠ []
  areDigits : ∀ digit ∈ digits, digit.isDigit = true
  noLeadingZero : digits.head? = some '0' → digits = ['0']
  meaning : Nat.ofDigitChars 10 digits 0 = value

/-- The digits of a whole number, with a sign or without. -/
inductive IsNumeral : Int → List Char → Prop where
  | natural {value : Nat} {digits : List Char} :
      IsNatural value digits → IsNumeral value digits
  | negative {value : Nat} {digits : List Char} :
      IsNatural value digits → IsNumeral (-value) ('-' :: digits)

/-! ## Values -/

mutual

/-- The ways of writing a value. -/
inductive IsWritten : Json → List Char → Prop where
  | null : IsWritten .null ['n', 'u', 'l', 'l']
  | true : IsWritten (.bool true) ['t', 'r', 'u', 'e']
  | false : IsWritten (.bool false) ['f', 'a', 'l', 's', 'e']
  | number {value : Int} {text : List Char} :
      IsNumeral value text → IsWritten (.number value) text
  | string {value : String} {text : List Char} :
      IsQuoted value.toList text → IsWritten (.string value) text
  | emptyArray {gap : List Char} :
      AreBlanks gap → IsWritten (.array []) ('[' :: (gap ++ [']']))
  | array {items : List Json} {text : List Char} :
      AreItems items text → IsWritten (.array items) ('[' :: (text ++ [']']))
  | emptyObject {gap : List Char} :
      AreBlanks gap → IsWritten (.object []) ('{' :: (gap ++ ['}']))
  | object {members : List (String × Json)} {text : List Char} :
      AreMembers members text → IsWritten (.object members) ('{' :: (text ++ ['}']))

/-- The ways of writing the items of an array, of which there is at least one. -/
inductive AreItems : List Json → List Char → Prop where
  | last {item : Json} {before text after : List Char} :
      AreBlanks before → IsWritten item text → AreBlanks after →
      AreItems [item] (before ++ text ++ after)
  | more {item : Json} {later : List Json} {before text after rest : List Char} :
      AreBlanks before → IsWritten item text → AreBlanks after → AreItems later rest →
      AreItems (item :: later) (before ++ text ++ after ++ ',' :: rest)

/-- The ways of writing the members of an object, of which there is at least one. -/
inductive AreMembers : List (String × Json) → List Char → Prop where
  | last {key : String} {value : Json} {before name behind ahead text after : List Char} :
      AreBlanks before → IsQuoted key.toList name → AreBlanks behind →
      AreBlanks ahead → IsWritten value text → AreBlanks after →
      AreMembers [(key, value)] (before ++ name ++ behind ++ ':' :: (ahead ++ text ++ after))
  | more {key : String} {value : Json} {later : List (String × Json)}
      {before name behind ahead text after rest : List Char} :
      AreBlanks before → IsQuoted key.toList name → AreBlanks behind →
      AreBlanks ahead → IsWritten value text → AreBlanks after → AreMembers later rest →
      AreMembers ((key, value) :: later)
        (before ++ name ++ behind ++ ':' :: (ahead ++ text ++ after ++ ',' :: rest))

end

/-- A text that is one document: a value, and nothing else but blanks around it. -/
def IsDocument (value : Json) (text : List Char) : Prop :=
  ∃ before body after,
    AreBlanks before ∧ IsWritten value body ∧ AreBlanks after ∧ text = before ++ body ++ after

/-! ## What the printer writes -/

theorem areBlanks_nil : AreBlanks [] :=
  List.forall_mem_nil _

private theorem hexValue?_hexDigit {value : Nat} (small : value < 16) :
    hexValue? (hexDigit value) = some value := by
  have all : ∀ digit : Fin 16, hexValue? (hexDigit digit) = some digit.val := by
    decide
  exact all ⟨value, small⟩

private theorem isCode_of_lt {value : Nat} (small : value < 0x20) :
    IsCode value ['0', '0', hexDigit (value / 16), hexDigit (value % 16)] := by
  have upper := hexValue?_hexDigit (show value / 16 < 16 by omega)
  have lower := hexValue?_hexDigit (show value % 16 < 16 by omega)
  have zero : hexValue? '0' = some 0 := by
    decide
  refine ⟨[0, 0, value / 16, value % 16], ?_, rfl, ?_⟩
  · simp [zero, upper, lower]
  · simp only [List.foldl_cons, List.foldl_nil]
    omega

private theorem spells_escapeChar (character : Char) : Spells character (escapeChar character) := by
  unfold escapeChar
  split
  · exact .short (by decide)
  · exact .short (by decide)
  · exact .short (by decide)
  · exact .short (by decide)
  · exact .short (by decide)
  · exact .short (by decide)
  · exact .short (by decide)
  · rename_i notQuote notBackslash _ _ _ _ _
    by_cases small : character.toNat < 0x20
    · rw [if_pos small]
      exact .code (isCode_of_lt small)
    · rw [if_neg small]
      exact .plain (Nat.not_lt.mp small) notQuote notBackslash

theorem isQuoted_quote (value : List Char) : IsQuoted value (quote value) := by
  refine ⟨value.map escapeChar, ?_, ?_⟩
  · rw [List.forall₂_map_right_iff, List.forall₂_same]
    exact fun character _ => spells_escapeChar character
  · rw [quote, List.flatMap_def]

private theorem toDigits_eq_of_leading_zero
    {value : Nat} (leading : (Nat.toDigits 10 value).head? = some '0') :
    Nat.toDigits 10 value = ['0'] := by
  induction value using Nat.strongRecOn with
  | ind value inductionHypothesis =>
      by_cases small : value < 10
      · rw [Nat.toDigits_of_lt_base small] at leading ⊢
        simpa using leading
      · have divided := Nat.toDigits_of_base_le (by decide) (Nat.not_lt.mp small)
        rw [divided, List.head?_append_of_ne_nil _ Nat.toDigits_ne_nil] at leading
        have front := inductionHypothesis (value / 10) (by omega) leading
        have meaning : Nat.ofDigitChars 10 (Nat.toDigits 10 (value / 10)) 0 = value / 10 :=
          Nat.ofDigitChars_toDigits (by decide) (by decide)
        rw [front] at meaning
        have isZero : value / 10 = 0 := by
          rw [← meaning]
          decide
        omega

/-- The digits that are printed for a number have no needless zero. -/
theorem isNatural_toDigits (value : Nat) : IsNatural value (Nat.toDigits 10 value) := by
  refine ⟨Nat.toDigits_ne_nil, ?_, toDigits_eq_of_leading_zero, ?_⟩
  · exact fun digit member => Nat.isDigit_of_mem_toDigits (by decide) (by decide) member
  · exact Nat.ofDigitChars_toDigits (by decide) (by decide)

private theorem isNumeral_numeral (value : Int) : IsNumeral value (numeral value) := by
  cases value with
  | ofNat magnitude => exact .natural (isNatural_toDigits magnitude)
  | negSucc predecessor => exact .negative (isNatural_toDigits (predecessor + 1))

/-- A layout that adds nothing but blanks to the marks. -/
structure Layout.IsBlank (layout : Layout) : Prop where
  lead : ∀ depth, AreBlanks (layout.lead depth)
  colon : ∃ behind ahead, AreBlanks behind ∧ AreBlanks ahead ∧ layout.colon = behind ++ ':' :: ahead

theorem Layout.isBlank_pretty : Layout.pretty.IsBlank := by
  refine ⟨?_, [], [' '], areBlanks_nil, by simp [AreBlanks, Json.isBlank], rfl⟩
  intro depth character member
  rcases List.mem_cons.mp member with rfl | inBlanks
  · rfl
  · rw [List.eq_of_mem_replicate inBlanks]
    rfl

theorem Layout.isBlank_compact : Layout.compact.IsBlank :=
  ⟨fun _ => areBlanks_nil, [], [], areBlanks_nil, areBlanks_nil, rfl⟩

/-- A value is reached through the items of arrays and the members of objects. -/
theorem inductionOn
    {motive : Json → Prop}
    (null : motive .null)
    (bool : ∀ value, motive (.bool value))
    (number : ∀ value, motive (.number value))
    (string : ∀ value, motive (.string value))
    (array : ∀ items, (∀ item ∈ items, motive item) → motive (.array items))
    (object : ∀ members, (∀ member ∈ members, motive member.2) → motive (.object members)) :
    ∀ value, motive value
  | .null => null
  | .bool value => bool value
  | .number value => number value
  | .string value => string value
  | .array items =>
      array items fun item _inItems => inductionOn null bool number string array object item
  | .object members =>
      object members fun member _inMembers =>
        inductionOn null bool number string array object member.2
  termination_by value => sizeOf value
  decreasing_by
    · have smaller := List.sizeOf_lt_of_mem _inItems
      simp only [Json.array.sizeOf_spec]
      omega
    · have smaller := List.sizeOf_lt_of_mem _inMembers
      obtain ⟨key, value⟩ := member
      simp only [Json.object.sizeOf_spec, Prod.mk.sizeOf_spec] at smaller ⊢
      omega

variable {layout : Layout}

private theorem areItems_write
    (blankLayout : layout.IsBlank) (depth : Nat) {gap : List Char} (blankGap : AreBlanks gap)
    (first : Json) (later : List Json)
    (written : ∀ item ∈ first :: later, IsWritten item (write layout depth item)) :
    AreItems (first :: later)
      (layout.lead depth ++ write layout depth first ++ writeItems layout depth later ++ gap) := by
  induction later generalizing first with
  | nil =>
      rw [writeItems, List.append_nil]
      exact .last (blankLayout.lead depth) (written first (by simp)) blankGap
  | cons item later inductionHypothesis =>
      rw [List.forall_mem_cons] at written
      -- The printer puts a comma right behind a value; the blanks after it belong to the next one.
      have items :=
        AreItems.more (blankLayout.lead depth) written.1 areBlanks_nil
          (inductionHypothesis item written.2)
      rw [writeItems]
      simpa using items

private theorem areMembers_write
    (blankLayout : layout.IsBlank) (depth : Nat) {gap : List Char} (blankGap : AreBlanks gap)
    (first : String × Json) (later : List (String × Json))
    (written : ∀ member ∈ first :: later, IsWritten member.2 (write layout depth member.2)) :
    AreMembers (first :: later)
      (layout.lead depth ++ writeMember layout depth first ++ writeMembers layout depth later ++
        gap) := by
  obtain ⟨behind, ahead, blankBehind, blankAhead, colon⟩ := blankLayout.colon
  induction later generalizing first with
  | nil =>
      obtain ⟨key, value⟩ := first
      have members :=
        AreMembers.last (blankLayout.lead depth) (isQuoted_quote key.toList) blankBehind blankAhead
          (written (key, value) (by simp)) blankGap
      rw [writeMembers, writeMember, colon]
      simpa using members
  | cons member later inductionHypothesis =>
      obtain ⟨key, value⟩ := first
      rw [List.forall_mem_cons] at written
      have members :=
        AreMembers.more (blankLayout.lead depth) (isQuoted_quote key.toList) blankBehind blankAhead
          written.1 areBlanks_nil (inductionHypothesis member written.2)
      rw [writeMembers, writeMember, colon]
      simpa using members

/-- In a layout of blanks, what is written for a value is a way of writing it. -/
theorem isWritten_write (blankLayout : layout.IsBlank) (value : Json) (depth : Nat) :
    IsWritten value (write layout depth value) := by
  induction value using Json.inductionOn generalizing depth with
  | null =>
      rw [write]
      exact .null
  | bool value =>
      cases value with
      | true =>
          rw [write]
          exact .true
      | false =>
          rw [write]
          exact .false
  | number value =>
      rw [write]
      exact .number (isNumeral_numeral value)
  | string value =>
      rw [write]
      exact .string (isQuoted_quote value.toList)
  | array items inductionHypothesis =>
      cases items with
      | nil =>
          rw [write]
          exact .emptyArray areBlanks_nil
      | cons first later =>
          have items :=
            areItems_write blankLayout (depth + 1) (blankLayout.lead depth) first later
              fun item member => inductionHypothesis item member (depth + 1)
          rw [write]
          exact .array items
  | object members inductionHypothesis =>
      cases members with
      | nil =>
          rw [write]
          exact .emptyObject areBlanks_nil
      | cons first later =>
          have members :=
            areMembers_write blankLayout (depth + 1) (blankLayout.lead depth) first later
              fun member inMembers => inductionHypothesis member inMembers (depth + 1)
          rw [write]
          exact .object members

/-- The indented form of a value is a document for it. -/
theorem isDocument_pretty (value : Json) : IsDocument value value.pretty.toList := by
  refine ⟨[], write .pretty 0 value, [], areBlanks_nil, ?_, areBlanks_nil, ?_⟩
  · exact isWritten_write Layout.isBlank_pretty value 0
  · simp [pretty]

/-- The form on one line is a document for the same value. -/
theorem isDocument_compact (value : Json) : IsDocument value value.compact.toList := by
  refine ⟨[], write .compact 0 value, [], areBlanks_nil, ?_, areBlanks_nil, ?_⟩
  · exact isWritten_write Layout.isBlank_compact value 0
  · simp [compact]

/-! ## Values on one line -/

private theorem newline_not_mem_toDigits (value : Nat) : '\n' ∉ Nat.toDigits 10 value := by
  intro member
  cases (isNatural_toDigits value).areDigits '\n' member

private theorem newline_not_mem_numeral (value : Int) : '\n' ∉ numeral value := by
  cases value with
  | ofNat magnitude => exact newline_not_mem_toDigits magnitude
  | negSucc predecessor =>
      rw [numeral, List.mem_cons, not_or]
      exact ⟨by decide, newline_not_mem_toDigits (predecessor + 1)⟩

private theorem newline_ne_hexDigit : ∀ value < 16, '\n' ≠ hexDigit value := by
  decide

private theorem newline_not_mem_escapeChar (character : Char) : '\n' ∉ escapeChar character := by
  unfold escapeChar
  split
  case h_8 =>
    split_ifs with control
    · have high := newline_ne_hexDigit (character.toNat / 16) (by omega)
      have low := newline_ne_hexDigit (character.toNat % 16) (by omega)
      simp [high, low]
    · rw [List.mem_singleton]
      rintro rfl
      exact control (by decide)
  all_goals decide

private theorem newline_not_mem_quote (text : List Char) : '\n' ∉ quote text := by
  simp [quote, newline_not_mem_escapeChar]

@[simp]
theorem lead_compact (depth : Nat) : Layout.compact.lead depth = [] :=
  rfl

@[simp]
theorem colon_compact : Layout.compact.colon = [':'] :=
  rfl

private theorem newline_not_mem_writeItems
    {items : List Json} {depth : Nat}
    (onOneLine : ∀ item ∈ items, '\n' ∉ write .compact depth item) :
    '\n' ∉ writeItems .compact depth items := by
  induction items with
  | nil => simp [writeItems]
  | cons item later inductionHypothesis =>
      rw [List.forall_mem_cons] at onOneLine
      simp [writeItems, onOneLine.1, inductionHypothesis onOneLine.2]

private theorem newline_not_mem_writeMember
    {key : String} {value : Json} {depth : Nat} (onOneLine : '\n' ∉ write .compact depth value) :
    '\n' ∉ writeMember .compact depth (key, value) := by
  simp [writeMember, newline_not_mem_quote, onOneLine]

private theorem newline_not_mem_writeMembers
    {members : List (String × Json)} {depth : Nat}
    (onOneLine : ∀ member ∈ members, '\n' ∉ write .compact depth member.2) :
    '\n' ∉ writeMembers .compact depth members := by
  induction members with
  | nil => simp [writeMembers]
  | cons member later inductionHypothesis =>
      rw [List.forall_mem_cons] at onOneLine
      simp [writeMembers, newline_not_mem_writeMember onOneLine.1, inductionHypothesis onOneLine.2]

/-- No part of a value is written with a line break, at whatever depth it stands. -/
private theorem newline_not_mem_write (value : Json) (depth : Nat) :
    '\n' ∉ write .compact depth value := by
  induction value using Json.inductionOn generalizing depth with
  | null => simp [write]
  | bool value => cases value <;> simp [write]
  | number value => simp [write, newline_not_mem_numeral]
  | string value => simp [write, newline_not_mem_quote]
  | array items inductionHypothesis =>
      cases items with
      | nil => simp [write]
      | cons first later =>
          rw [List.forall_mem_cons] at inductionHypothesis
          have items :=
            newline_not_mem_writeItems fun item member =>
              inductionHypothesis.2 item member (depth + 1)
          simp [write, inductionHypothesis.1, items]
  | object members inductionHypothesis =>
      cases members with
      | nil => simp [write]
      | cons first later =>
          rw [List.forall_mem_cons] at inductionHypothesis
          have member :=
            @newline_not_mem_writeMember first.1 first.2 _ (inductionHypothesis.1 (depth + 1))
          have members :=
            newline_not_mem_writeMembers fun member isLater =>
              inductionHypothesis.2 member isLater (depth + 1)
          simp [write, member, members]

/-- Line breaks inside strings are escaped, and there are no others. -/
theorem newline_not_mem_compact (value : Json) : '\n' ∉ value.compact.toList := by
  simpa [compact] using newline_not_mem_write value 0

/-! ## Arrays and objects -/

end SourceCritic.Json
