import Mathlib
import SourceCritic.Proofs.Json.Documents
import SourceCritic.Proofs.Text.Bytes

/-!
# Reading JSON

A parser by recursive descent.  Each function reads what it is named after from the beginning of a
text and returns it with the rest of the text.  Numbers with a fraction or an exponent stand for no
value and are refused, and so are strings with half of a surrogate pair.

For numbers and strings, the main results say from which texts they are read.
-/

namespace SourceCritic.Json

/-! ## The parser -/

def skipBlanks (text : List Char) : List Char :=
  text.dropWhile isBlank

/-- Reads a word that stands for a value. -/
def readWord (word : String) (value : Json) (text : List Char) : Option (Json × List Char) :=
  if word.toList.isPrefixOf text then some (value, text.drop word.toList.length) else none

/-- Reads the digits of a natural number, without needless zeros in front. -/
def readNatural (text : List Char) : Option (Nat × List Char) :=
  let digits := text.takeWhile Char.isDigit
  if digits = [] ∨ digits.head? = some '0' ∧ digits ≠ ['0'] then
    none
  else
    some (Nat.ofDigitChars 10 digits 0, text.dropWhile Char.isDigit)

def readNumber (text : List Char) : Option (Json × List Char) :=
  match text with
  | '-' :: behind => (readNatural behind).map fun read => (.number (-read.1), read.2)
  | _ => (readNatural text).map fun read => (.number read.1, read.2)

/-- Reads four hexadecimal digits. -/
def readCode (text : List Char) : Option (Nat × List Char) :=
  match (text.take 4).mapM hexValue? with
  | some [first, second, third, fourth] =>
      some (((first * 16 + second) * 16 + third) * 16 + fourth, text.drop 4)
  | _ => none

/-- Reads the code of a character, which is divided in two if the first part says so. -/
def readCoded (text : List Char) : Option (Char × List Char) :=
  match readCode text with
  | none => none
  | some (high, behind) =>
      if high < 0xD800 ∨ 0xE000 ≤ high then
        some (Char.ofNat high, behind)
      else if high < 0xDC00 then
        match behind with
        | '\\' :: 'u' :: more =>
            match readCode more with
            | none => none
            | some (low, behind) =>
                if 0xDC00 ≤ low ∧ low < 0xE000 then
                  some (Char.ofNat (0x10000 + (high - 0xD800) * 0x400 + (low - 0xDC00)), behind)
                else
                  none
        | _ => none
      else
        none

/-- Reads one character of a string. -/
def readCharacter (text : List Char) : Option (Char × List Char) :=
  match text with
  | [] => none
  | '"' :: _ => none
  | '\\' :: 'u' :: behind => readCoded behind
  | '\\' :: letter :: behind => (shortForms.lookup letter).map fun character => (character, behind)
  | head :: behind =>
      if head = '\\' ∨ head.toNat < 0x20 then none else some (head, behind)

/-- Reads the characters of a string and the quote behind them.  There may be fewer characters than
`limit`. -/
def readCharacters : (limit : Nat) → (text : List Char) → Option (List Char × List Char)
  | 0, _ => none
  | limit + 1, text =>
      match text with
      | '"' :: behind => some ([], behind)
      | _ =>
          match readCharacter text with
          | none => none
          | some (character, behind) =>
              (readCharacters limit behind).map fun read => (character :: read.1, read.2)

def readQuoted (text : List Char) : Option (String × List Char) :=
  match text with
  | '"' :: behind =>
      (readCharacters (behind.length + 1) behind).map fun read => (String.ofList read.1, read.2)
  | _ => none

mutual

/-- Reads a value.  `limit` bounds how many values, items and members are read one within or behind
the other; there are never more of them than characters. -/
def readValue : (limit : Nat) → (text : List Char) → Option (Json × List Char)
  | 0, _ => none
  | limit + 1, text =>
      match text with
      | 'n' :: _ => readWord "null" .null text
      | 't' :: _ => readWord "true" (.bool true) text
      | 'f' :: _ => readWord "false" (.bool false) text
      | '"' :: _ => (readQuoted text).map fun read => (.string read.1, read.2)
      | '[' :: behind =>
          match skipBlanks behind with
          | ']' :: after => some (.array [], after)
          | _ => (readItems limit behind).map fun read => (.array read.1, read.2)
      | '{' :: behind =>
          match skipBlanks behind with
          | '}' :: after => some (.object [], after)
          | _ => (readMembers limit behind).map fun read => (.object read.1, read.2)
      | _ => readNumber text

/-- Reads the items of an array, of which there is at least one, and the closing bracket. -/
def readItems : (limit : Nat) → (text : List Char) → Option (List Json × List Char)
  | 0, _ => none
  | limit + 1, text =>
      match readValue limit (skipBlanks text) with
      | none => none
      | some (item, behind) =>
          match skipBlanks behind with
          | ']' :: after => some ([item], after)
          | ',' :: after => (readItems limit after).map fun read => (item :: read.1, read.2)
          | _ => none

/-- Reads the members of an object, of which there is at least one, and the closing brace. -/
def readMembers : (limit : Nat) → (text : List Char) → Option (List (String × Json) × List Char)
  | 0, _ => none
  | limit + 1, text =>
      match readQuoted (skipBlanks text) with
      | none => none
      | some (key, behindKey) =>
          match skipBlanks behindKey with
          | ':' :: ahead =>
              match readValue limit (skipBlanks ahead) with
              | none => none
              | some (value, behind) =>
                  match skipBlanks behind with
                  | '}' :: after => some ([(key, value)], after)
                  | ',' :: after =>
                      (readMembers limit after).map fun read => ((key, value) :: read.1, read.2)
                  | _ => none
          | _ => none

end

/-- The value that a text stands for, if it is a document. -/
def parse (text : List Char) : Option Json :=
  match readValue text.length (skipBlanks text) with
  | none => none
  | some (value, behind) => if skipBlanks behind = [] then some value else none

/-! ## Blanks -/

theorem skipBlanks_append {gap : List Char} (blank : AreBlanks gap) (text : List Char) :
    skipBlanks (gap ++ text) = skipBlanks text :=
  List.dropWhile_append_of_pos blank

theorem skipBlanks_cons {mark : Char} (notBlank : isBlank mark = false) (rest : List Char) :
    skipBlanks (mark :: rest) = mark :: rest := by
  rw [skipBlanks, List.dropWhile_cons_of_neg]
  simp [notBlank]

theorem skipBlanks_of_areBlanks {gap : List Char} (blank : AreBlanks gap) :
    skipBlanks gap = [] := by
  have skipped := skipBlanks_append blank []
  rwa [List.append_nil] at skipped

/-- Skipping takes blanks away and nothing else. -/
theorem exists_skipBlanks (text : List Char) :
    ∃ gap, AreBlanks gap ∧ text = gap ++ skipBlanks text := by
  refine ⟨text.takeWhile isBlank, ?_, List.takeWhile_append_dropWhile.symm⟩
  exact fun character member => List.mem_takeWhile_imp member

/-! ## Numbers -/

/-- The text does not continue a number in front of it. -/
def EndsNumber (text : List Char) : Prop :=
  ∀ digit ∈ text.head?, digit.isDigit = false

theorem endsNumber_cons {mark : Char} (noDigit : mark.isDigit = false) (rest : List Char) :
    EndsNumber (mark :: rest) := by
  intro digit isHead
  rw [List.head?_cons, Option.mem_some_iff] at isHead
  rwa [← isHead]

private theorem endsNumber_dropWhile (text : List Char) :
    EndsNumber (text.dropWhile Char.isDigit) := by
  intro digit isHead
  have noDigit := List.head?_dropWhile_not Char.isDigit text
  rw [Option.mem_def.mp isHead] at noDigit
  exact noDigit

private theorem takeWhile_eq_nil_of_endsNumber {rest : List Char} (ends : EndsNumber rest) :
    rest.takeWhile Char.isDigit = [] ∧ rest.dropWhile Char.isDigit = rest := by
  cases rest with
  | nil => exact ⟨rfl, rfl⟩
  | cons head rest =>
      have noDigit : ¬ head.isDigit = true := by
        simp [ends head rfl]
      exact ⟨List.takeWhile_cons_of_neg noDigit, List.dropWhile_cons_of_neg noDigit⟩

/-- Reading a number takes all digits that there are, so nothing behind them continues it. -/
theorem readNatural_eq_some_iff (text : List Char) (value : Nat) (rest : List Char) :
    readNatural text = some (value, rest) ↔
      EndsNumber rest ∧ ∃ digits, IsNatural value digits ∧ text = digits ++ rest := by
  constructor
  · intro read
    rw [readNatural] at read
    split at read
    · cases read
    · rename_i natural
      cases read
      rw [not_or, not_and, not_not] at natural
      refine ⟨endsNumber_dropWhile text, text.takeWhile Char.isDigit, ?_, ?_⟩
      · exact ⟨natural.1, fun digit => List.mem_takeWhile_imp, natural.2, rfl⟩
      · exact List.takeWhile_append_dropWhile.symm
  · rintro ⟨ends, digits, isNatural, rfl⟩
    obtain ⟨nothingTaken, nothingDropped⟩ := takeWhile_eq_nil_of_endsNumber ends
    have taken : (digits ++ rest).takeWhile Char.isDigit = digits := by
      rw [List.takeWhile_append_of_pos isNatural.areDigits, nothingTaken, List.append_nil]
    have dropped : (digits ++ rest).dropWhile Char.isDigit = rest := by
      rw [List.dropWhile_append_of_pos isNatural.areDigits, nothingDropped]
    have natural : ¬ (digits = [] ∨ digits.head? = some '0' ∧ digits ≠ ['0']) := by
      rw [not_or, not_and, not_not]
      exact ⟨isNatural.nonempty, isNatural.noLeadingZero⟩
    simp only [readNatural, taken, dropped, if_neg natural, isNatural.meaning]

theorem IsNatural.exists_cons
    {value : Nat} {digits : List Char} (isNatural : IsNatural value digits) :
    ∃ digit more, digits = digit :: more ∧ digit.isDigit = true := by
  obtain ⟨digit, more, rfl⟩ := List.exists_cons_of_ne_nil isNatural.nonempty
  exact ⟨digit, more, rfl, isNatural.areDigits digit List.mem_cons_self⟩

/-- Reading a number takes its sign and all of its digits. -/
theorem readNumber_eq_some_iff (text : List Char) (value : Json) (rest : List Char) :
    readNumber text = some (value, rest) ↔
      EndsNumber rest ∧
        ∃ whole numeral,
          value = .number whole ∧ IsNumeral whole numeral ∧ text = numeral ++ rest := by
  constructor
  · intro read
    unfold readNumber at read
    split at read
    · rename_i behind
      obtain ⟨⟨natural, remainder⟩, readBehind, same⟩ := Option.map_eq_some_iff.mp read
      cases same
      obtain ⟨ends, digits, isNatural, rfl⟩ := (readNatural_eq_some_iff _ _ _).mp readBehind
      exact ⟨ends, _, _, rfl, .negative isNatural, rfl⟩
    · obtain ⟨⟨natural, remainder⟩, readText, same⟩ := Option.map_eq_some_iff.mp read
      cases same
      obtain ⟨ends, digits, isNatural, rfl⟩ := (readNatural_eq_some_iff _ _ _).mp readText
      exact ⟨ends, _, _, rfl, .natural isNatural, rfl⟩
  · rintro ⟨ends, whole, numeral, rfl, isNumeral, rfl⟩
    cases isNumeral with
    | natural isNatural =>
        have read := (readNatural_eq_some_iff _ _ _).mpr ⟨ends, _, isNatural, rfl⟩
        obtain ⟨digit, more, rfl, isDigit⟩ := isNatural.exists_cons
        have noSign : digit ≠ '-' := by
          rintro rfl
          exact absurd isDigit (by decide)
        unfold readNumber
        split
        · rename_i behind sign
          exact absurd (List.cons.inj sign).1 noSign
        · rw [read, Option.map_some]
    | negative isNatural =>
        have read := (readNatural_eq_some_iff _ _ _).mpr ⟨ends, _, isNatural, rfl⟩
        simp only [List.cons_append, readNumber, read, Option.map_some]

/-! ## Strings -/

private theorem hexValue?_lt {digit : Char} {value : Nat}
    (hasValue : hexValue? digit = some value) :
    value < 16 := by
  unfold hexValue? at hasValue
  simp only [Char.isDigit, Char.le_def, UInt32.le_iff_toNat_le, Char.toNat] at hasValue
  grind

private theorem mapM_hexValue?_eq_some
    {digits : List Char} {values : List Nat} (mapped : digits.mapM hexValue? = some values) :
    values.length = digits.length ∧ ∀ value ∈ values, value < 16 := by
  induction digits generalizing values with
  | nil =>
      cases mapped
      exact ⟨rfl, List.forall_mem_nil _⟩
  | cons digit digits inductionHypothesis =>
      simp only [List.mapM_cons, Option.bind_eq_bind, Option.bind_eq_some_iff] at mapped
      obtain ⟨value, hasValue, others, mappedOthers, same⟩ := mapped
      cases same
      obtain ⟨length, small⟩ := inductionHypothesis mappedOthers
      refine ⟨by rw [List.length_cons, List.length_cons, length], ?_⟩
      exact List.forall_mem_cons.mpr ⟨hexValue?_lt hasValue, small⟩

/-- A code is read exactly where four hexadecimal digits stand. -/
theorem readCode_eq_some_iff (text : List Char) (value : Nat) (rest : List Char) :
    readCode text = some (value, rest) ↔
      ∃ digits, IsCode value digits ∧ text = digits ++ rest := by
  constructor
  · intro read
    unfold readCode at read
    split at read
    · rename_i first second third fourth mapped
      cases read
      refine ⟨text.take 4, ⟨_, mapped, rfl, ?_⟩, (List.take_append_drop 4 text).symm⟩
      simp only [List.foldl_cons, List.foldl_nil]
      omega
    · cases read
  · rintro ⟨digits, ⟨values, mapped, four, rfl⟩, rfl⟩
    have length : digits.length = 4 := by
      rw [← (mapM_hexValue?_eq_some mapped).1, four]
    obtain ⟨first, second, third, fourth, rfl⟩ := List.length_eq_four.mp four
    have taken : (digits ++ rest).take 4 = digits := by
      rw [← length, List.take_left]
    have dropped : (digits ++ rest).drop 4 = rest := by
      rw [← length, List.drop_left]
    simp only [readCode, taken, dropped, mapped, List.foldl_cons, List.foldl_nil]
    congr 2
    omega

private theorem IsCode.readCode_append
    {value : Nat} {digits : List Char} (isCode : IsCode value digits) (rest : List Char) :
    readCode (digits ++ rest) = some (value, rest) :=
  (readCode_eq_some_iff _ _ _).mpr ⟨digits, isCode, rfl⟩

theorem IsCode.lt {value : Nat} {digits : List Char} (isCode : IsCode value digits) :
    value < 0x10000 := by
  obtain ⟨values, mapped, four, rfl⟩ := isCode
  obtain ⟨first, second, third, fourth, rfl⟩ := List.length_eq_four.mp four
  have small := (mapM_hexValue?_eq_some mapped).2
  simp only [List.forall_mem_cons] at small
  simp only [List.foldl_cons, List.foldl_nil]
  omega

private theorem spells_of_readCoded
    {text rest : List Char} {character : Char} (read : readCoded text = some (character, rest)) :
    ∃ digits, Spells character ('\\' :: 'u' :: digits) ∧ text = digits ++ rest := by
  unfold readCoded at read
  split at read
  · cases read
  · rename_i high behind readHigh
    obtain ⟨digits, isHigh, rfl⟩ := (readCode_eq_some_iff _ _ _).mp readHigh
    have small := isHigh.lt
    split_ifs at read with alone divided
    · cases read
      refine ⟨digits, .code ?_, rfl⟩
      rwa [Text.toNat_ofNat_of_isValidChar (by unfold Nat.isValidChar; omega)]
    · split at read
      · rename_i more
        split at read
        · cases read
        · rename_i low remainder readLow
          obtain ⟨others, isLow, rfl⟩ := (readCode_eq_some_iff _ _ _).mp readLow
          split_ifs at read with isBehind
          obtain ⟨rfl, rfl⟩ := Prod.mk.inj (Option.some.inj read)
          have code :
              (Char.ofNat (0x10000 + (high - 0xD800) * 0x400 + (low - 0xDC00))).toNat =
                0x10000 + (high - 0xD800) * 0x400 + (low - 0xDC00) :=
            Text.toNat_ofNat_of_isValidChar (by unfold Nat.isValidChar; omega)
          refine ⟨digits ++ '\\' :: 'u' :: others, .pair ?_ ?_ ?_, by simp⟩
          · omega
          · convert isHigh using 1
            omega
          · convert isLow using 1
            omega
      · cases read

private theorem readCoded_code
    {character : Char} {digits : List Char} (isCode : IsCode character.toNat digits)
    (rest : List Char) :
    readCoded (digits ++ rest) = some (character, rest) := by
  have alone : character.toNat < 0xD800 ∨ 0xE000 ≤ character.toNat := by
    have valid := character.valid
    unfold UInt32.isValidChar Nat.isValidChar at valid
    unfold Char.toNat
    omega
  simp only [readCoded, isCode.readCode_append, if_pos alone, Char.ofNat_toNat]

private theorem readCoded_pair
    {character : Char} {high low : List Char} (large : 0x10000 ≤ character.toNat)
    (isHigh : IsCode (0xD800 + (character.toNat - 0x10000) / 0x400) high)
    (isLow : IsCode (0xDC00 + (character.toNat - 0x10000) % 0x400) low)
    (rest : List Char) :
    readCoded (high ++ '\\' :: 'u' :: (low ++ rest)) = some (character, rest) := by
  have valid := character.valid
  unfold UInt32.isValidChar Nat.isValidChar at valid
  have whole :
      0x10000 + (0xD800 + (character.toNat - 0x10000) / 0x400 - 0xD800) * 0x400 +
        (0xDC00 + (character.toNat - 0x10000) % 0x400 - 0xDC00) = character.toNat := by
    omega
  have bound : character.toNat < 0x110000 := by
    unfold Char.toNat
    omega
  simp only [readCoded, isHigh.readCode_append, isLow.readCode_append, whole, Char.ofNat_toNat]
  rw [if_neg (by omega), if_pos (by omega), if_pos (by omega)]

private theorem readCharacter_short
    {letter character : Char} (isShort : (letter, character) ∈ shortForms) (rest : List Char) :
    readCharacter ('\\' :: letter :: rest) = some (character, rest) := by
  have all :
      ∀ form ∈ shortForms, readCharacter ('\\' :: form.1 :: rest) = some (form.2, rest) := by
    simp [shortForms, readCharacter, List.lookup]
  exact all _ isShort

/-- A character is read from exactly the pieces that spell it. -/
theorem readCharacter_eq_some_iff (text : List Char) (character : Char) (rest : List Char) :
    readCharacter text = some (character, rest) ↔
      ∃ piece, Spells character piece ∧ text = piece ++ rest := by
  constructor
  · intro read
    unfold readCharacter at read
    split at read
    · cases read
    · cases read
    · obtain ⟨digits, spells, rfl⟩ := spells_of_readCoded read
      exact ⟨_, spells, rfl⟩
    · rename_i letter behind _
      obtain ⟨found, isShort, same⟩ := Option.map_eq_some_iff.mp read
      cases same
      obtain ⟨before, after, forms, _⟩ := List.lookup_eq_some_iff.mp isShort
      refine ⟨['\\', letter], .short ?_, rfl⟩
      rw [forms]
      exact List.mem_append_right before List.mem_cons_self
    · rename_i head behind notQuote _ _
      split_ifs at read with isSpecial
      cases read
      rw [not_or, Nat.not_lt] at isSpecial
      exact ⟨[character], .plain isSpecial.2 (fun same => notQuote same) isSpecial.1, rfl⟩
  · rintro ⟨piece, spells, rfl⟩
    cases spells with
    | plain large notQuote notBackslash =>
        have notSpecial : ¬ (character = '\\' ∨ character.toNat < 0x20) := by
          rw [not_or, Nat.not_lt]
          exact ⟨notBackslash, large⟩
        unfold readCharacter
        split <;> simp_all
    | short isShort => exact readCharacter_short isShort rest
    | code isCode => exact readCoded_code isCode rest
    | pair large isHigh isLow =>
        have read := readCoded_pair large isHigh isLow rest
        simpa [readCharacter] using read

theorem Spells.ne_nil {character : Char} {piece : List Char} (spells : Spells character piece) :
    piece ≠ [] := by
  cases spells <;> exact List.cons_ne_nil _ _

/-- The characters of a string are read up to the quote that ends it. -/
theorem readCharacters_eq_some_iff
    (limit : Nat) (text characters rest : List Char) :
    readCharacters limit text = some (characters, rest) ↔
      characters.length < limit ∧
        ∃ pieces, List.Forall₂ Spells characters pieces ∧ text = pieces.flatten ++ '"' :: rest := by
  induction limit generalizing text characters with
  | zero => simp [readCharacters]
  | succ limit inductionHypothesis =>
      constructor
      · intro read
        unfold readCharacters at read
        split at read
        · cases read
          exact ⟨Nat.zero_lt_succ limit, [], .nil, rfl⟩
        · split at read
          · cases read
          · rename_i character behind readFirst
            obtain ⟨⟨others, remainder⟩, readOthers, same⟩ := Option.map_eq_some_iff.mp read
            cases same
            obtain ⟨piece, spells, rfl⟩ := (readCharacter_eq_some_iff _ _ _).mp readFirst
            obtain ⟨fewer, pieces, spellOthers, rfl⟩ := (inductionHypothesis _ _).mp readOthers
            refine ⟨Nat.succ_lt_succ fewer, piece :: pieces, .cons spells spellOthers, ?_⟩
            rw [List.flatten_cons, List.append_assoc]
      · rintro ⟨fewer, pieces, spell, rfl⟩
        cases spell with
        | nil => rfl
        | cons spells spellOthers =>
            rename_i character piece others pieces
            have readOthers :=
              (inductionHypothesis _ _).mpr ⟨Nat.lt_of_succ_lt_succ fewer, pieces, spellOthers, rfl⟩
            have readFirst :=
              (readCharacter_eq_some_iff _ _ _).mpr
                ⟨piece, spells, List.append_assoc piece pieces.flatten ('"' :: rest)⟩
            unfold readCharacters
            split
            · rename_i behind isQuote
              rw [← List.flatten_cons, isQuote] at readFirst
              cases readFirst
            · rw [List.flatten_cons, readFirst]
              simp only [readOthers, Option.map_some]

private theorem length_le_of_spells
    {characters : List Char} {pieces : List (List Char)}
    (spell : List.Forall₂ Spells characters pieces) :
    characters.length ≤ pieces.flatten.length := by
  induction spell with
  | nil => exact Nat.le_refl 0
  | cons spells _ inductionHypothesis =>
      have positive := List.length_pos_iff.mpr spells.ne_nil
      rw [List.flatten_cons, List.length_append, List.length_cons]
      omega

/-- A string is read from exactly the ways of writing it with its quotes. -/
theorem readQuoted_eq_some_iff (text : List Char) (value : String) (rest : List Char) :
    readQuoted text = some (value, rest) ↔
      ∃ quoted, IsQuoted value.toList quoted ∧ text = quoted ++ rest := by
  constructor
  · intro read
    unfold readQuoted at read
    split at read
    · obtain ⟨⟨characters, remainder⟩, readCharacters, same⟩ := Option.map_eq_some_iff.mp read
      cases same
      obtain ⟨_, pieces, spell, rfl⟩ := (readCharacters_eq_some_iff _ _ _ _).mp readCharacters
      refine ⟨'"' :: (pieces.flatten ++ ['"']), ⟨pieces, ?_, rfl⟩, by simp⟩
      rwa [String.toList_ofList]
    · cases read
  · rintro ⟨quoted, ⟨pieces, spell, rfl⟩, rfl⟩
    have text :
        '"' :: (pieces.flatten ++ ['"']) ++ rest = '"' :: (pieces.flatten ++ '"' :: rest) := by
      simp
    have fewer : value.toList.length < (pieces.flatten ++ '"' :: rest).length + 1 := by
      have bound := length_le_of_spells spell
      rw [List.length_append]
      omega
    have read := (readCharacters_eq_some_iff _ _ _ rest).mpr ⟨fewer, pieces, spell, rfl⟩
    rw [text, readQuoted, read, Option.map_some, String.ofList_toList]

theorem IsQuoted.readQuoted_append
    {value : String} {quoted : List Char} (isQuoted : IsQuoted value.toList quoted)
    (rest : List Char) :
    readQuoted (quoted ++ rest) = some (value, rest) :=
  (readQuoted_eq_some_iff _ _ _).mpr ⟨quoted, isQuoted, rfl⟩

end SourceCritic.Json
