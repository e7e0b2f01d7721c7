import SourceCritic.Proofs.Json.Parsing

/-!
# Documents are read as what they stand for

Two inductions meet in the main result.  What the parser reads is a way of writing what it read, by
induction on the limit; every way of writing a value is read as that value, by induction on the
value.  So the parser reads exactly the documents, and a document stands for one value only.
-/

namespace SourceCritic.Json

/-! ## What is read is written -/

/-- Whatever is read within the limit is a way of writing what it is read as. -/
structure ReadsWritten (limit : Nat) : Prop where
  value : ∀ {text value rest}, readValue limit text = some (value, rest) →
    ∃ body, IsWritten value body ∧ text = body ++ rest
  items : ∀ {text items rest}, readItems limit text = some (items, rest) →
    ∃ body, AreItems items body ∧ text = body ++ ']' :: rest
  members : ∀ {text members rest}, readMembers limit text = some (members, rest) →
    ∃ body, AreMembers members body ∧ text = body ++ '}' :: rest

private theorem eq_append_of_readWord
    {word : String} {value read : Json} {text rest : List Char}
    (isRead : readWord word value text = some (read, rest)) :
    read = value ∧ text = word.toList ++ rest := by
  unfold readWord at isRead
  split_ifs at isRead with isPrefix
  cases isRead
  obtain ⟨rest, rfl⟩ := List.isPrefixOf_iff_prefix.mp isPrefix
  rw [List.drop_left]
  exact ⟨rfl, rfl⟩

variable {limit : Nat} {text rest : List Char}

/-- One more step of reading a value, where all shorter readings are known to be right. -/
theorem ReadsWritten.value_succ
    (written : ReadsWritten limit) {value : Json}
    (read : readValue (limit + 1) text = some (value, rest)) :
    ∃ body, IsWritten value body ∧ text = body ++ rest := by
  unfold readValue at read
  split at read
  · obtain ⟨rfl, isText⟩ := eq_append_of_readWord read
    exact ⟨_, .null, isText⟩
  · obtain ⟨rfl, isText⟩ := eq_append_of_readWord read
    exact ⟨_, .true, isText⟩
  · obtain ⟨rfl, isText⟩ := eq_append_of_readWord read
    exact ⟨_, .false, isText⟩
  · obtain ⟨⟨string, remainder⟩, readString, same⟩ := Option.map_eq_some_iff.mp read
    cases same
    obtain ⟨quoted, isQuoted, isText⟩ := (readQuoted_eq_some_iff _ _ _).mp readString
    exact ⟨quoted, .string isQuoted, isText⟩
  · rename_i behind
    split at read
    · rename_i after closes
      cases read
      obtain ⟨gap, blank, isBehind⟩ := exists_skipBlanks behind
      refine ⟨'[' :: (gap ++ [']']), .emptyArray blank, ?_⟩
      rw [isBehind, closes]
      simp
    · obtain ⟨⟨items, remainder⟩, readItems, same⟩ := Option.map_eq_some_iff.mp read
      cases same
      obtain ⟨body, areItems, rfl⟩ := written.items readItems
      exact ⟨'[' :: (body ++ [']']), .array areItems, by simp⟩
  · rename_i behind
    split at read
    · rename_i after closes
      cases read
      obtain ⟨gap, blank, isBehind⟩ := exists_skipBlanks behind
      refine ⟨'{' :: (gap ++ ['}']), .emptyObject blank, ?_⟩
      rw [isBehind, closes]
      simp
    · obtain ⟨⟨members, remainder⟩, readMembers, same⟩ := Option.map_eq_some_iff.mp read
      cases same
      obtain ⟨body, areMembers, rfl⟩ := written.members readMembers
      exact ⟨'{' :: (body ++ ['}']), .object areMembers, by simp⟩
  · obtain ⟨_, whole, numeral, rfl, isNumeral, isText⟩ := (readNumber_eq_some_iff _ _ _).mp read
    exact ⟨numeral, .number isNumeral, isText⟩

/-- One more step of reading items, where all shorter readings are known to be right. -/
theorem ReadsWritten.items_succ
    (written : ReadsWritten limit) {items : List Json}
    (read : readItems (limit + 1) text = some (items, rest)) :
    ∃ body, AreItems items body ∧ text = body ++ ']' :: rest := by
  obtain ⟨before, blankBefore, isText⟩ := exists_skipBlanks text
  unfold readItems at read
  split at read
  · cases read
  · rename_i item behind readItem
    obtain ⟨body, isWritten, isBody⟩ := written.value readItem
    obtain ⟨after, blankAfter, isBehind⟩ := exists_skipBlanks behind
    rw [isText, isBody, isBehind]
    split at read
    · rename_i remainder closes
      cases read
      refine ⟨_, .last blankBefore isWritten blankAfter, ?_⟩
      rw [closes]
      simp
    · rename_i ahead comma
      obtain ⟨⟨later, remainder⟩, readLater, same⟩ := Option.map_eq_some_iff.mp read
      cases same
      obtain ⟨others, areItems, rfl⟩ := written.items readLater
      refine ⟨_, .more blankBefore isWritten blankAfter areItems, ?_⟩
      rw [comma]
      simp
    · cases read

/-- One more step of reading members, where all shorter readings are known to be right. -/
theorem ReadsWritten.members_succ
    (written : ReadsWritten limit) {members : List (String × Json)}
    (read : readMembers (limit + 1) text = some (members, rest)) :
    ∃ body, AreMembers members body ∧ text = body ++ '}' :: rest := by
  obtain ⟨before, blankBefore, isText⟩ := exists_skipBlanks text
  unfold readMembers at read
  split at read
  · cases read
  · rename_i key behindKey readKey
    obtain ⟨name, isQuoted, isName⟩ := (readQuoted_eq_some_iff _ _ _).mp readKey
    obtain ⟨afterKey, blankKey, isBehindKey⟩ := exists_skipBlanks behindKey
    rw [isText, isName, isBehindKey]
    split at read
    · rename_i ahead colon
      obtain ⟨gap, blankGap, isAhead⟩ := exists_skipBlanks ahead
      rw [colon, isAhead]
      split at read
      · cases read
      · rename_i value behind readValue
        obtain ⟨body, isWritten, isBody⟩ := written.value readValue
        obtain ⟨after, blankAfter, isBehind⟩ := exists_skipBlanks behind
        rw [isBody, isBehind]
        split at read
        · rename_i remainder closes
          cases read
          refine ⟨_, .last blankBefore isQuoted blankKey blankGap isWritten blankAfter, ?_⟩
          rw [closes]
          simp
        · rename_i next comma
          obtain ⟨⟨later, remainder⟩, readLater, same⟩ := Option.map_eq_some_iff.mp read
          cases same
          obtain ⟨others, areMembers, rfl⟩ := written.members readLater
          refine
            ⟨_, .more blankBefore isQuoted blankKey blankGap isWritten blankAfter areMembers, ?_⟩
          rw [comma]
          simp
        · cases read
    · cases read

theorem readsWritten (limit : Nat) : ReadsWritten limit := by
  induction limit with
  | zero =>
      refine ⟨?_, ?_, ?_⟩
      · intro text value rest read
        rw [readValue] at read
        cases read
      · intro text items rest read
        rw [readItems] at read
        cases read
      · intro text members rest read
        rw [readMembers] at read
        cases read
  | succ limit inductionHypothesis =>
      exact
        ⟨inductionHypothesis.value_succ, inductionHypothesis.items_succ,
          inductionHypothesis.members_succ⟩

/-! ## What is written is read -/

/-- Every way of writing the value is read as the value, where no number continues behind it. -/
def IsRead (value : Json) : Prop :=
  ∀ limit text rest, IsWritten value text → EndsNumber rest → text.length ≤ limit + 1 →
    readValue (limit + 1) (text ++ rest) = some (value, rest)

private theorem ne_of_isDigit
    {digit mark : Char} (isDigit : digit.isDigit = true) (noDigit : mark.isDigit = false) :
    digit ≠ mark := by
  rintro rfl
  rw [isDigit] at noDigit
  cases noDigit

private theorem IsNumeral.exists_cons
    {value : Int} {numeral : List Char} (isNumeral : IsNumeral value numeral) :
    ∃ head more, numeral = head :: more ∧ (head = '-' ∨ head.isDigit = true) := by
  cases isNumeral with
  | natural isNatural =>
      obtain ⟨digit, more, rfl, isDigit⟩ := isNatural.exists_cons
      exact ⟨digit, more, rfl, .inr isDigit⟩
  | negative isNatural => exact ⟨'-', _, rfl, .inl rfl⟩

/-- No value begins with a blank or with the mark that closes an array. -/
private theorem exists_cons_of_isWritten {value : Json} (isWritten : IsWritten value text) :
    ∃ head more, text = head :: more ∧ isBlank head = false ∧ head ≠ ']' := by
  cases isWritten with
  | null => exact ⟨_, _, rfl, by decide, by decide⟩
  | true => exact ⟨_, _, rfl, by decide, by decide⟩
  | false => exact ⟨_, _, rfl, by decide, by decide⟩
  | number isNumeral =>
      obtain ⟨head, more, rfl, rfl | isDigit⟩ := isNumeral.exists_cons
      · exact ⟨_, _, rfl, by decide, by decide⟩
      · refine ⟨head, more, rfl, ?_, ne_of_isDigit isDigit (by decide)⟩
        simp [isBlank, ne_of_isDigit isDigit]
  | string isQuoted =>
      obtain ⟨pieces, _, rfl⟩ := isQuoted
      exact ⟨_, _, rfl, by decide, by decide⟩
  | emptyArray _ => exact ⟨_, _, rfl, by decide, by decide⟩
  | array _ => exact ⟨_, _, rfl, by decide, by decide⟩
  | emptyObject _ => exact ⟨_, _, rfl, by decide, by decide⟩
  | object _ => exact ⟨_, _, rfl, by decide, by decide⟩

private theorem skipBlanks_written
    {before : List Char} {value : Json} (blank : AreBlanks before)
    (isWritten : IsWritten value text) (rest : List Char) :
    skipBlanks (before ++ (text ++ rest)) = text ++ rest := by
  obtain ⟨head, more, rfl, notBlank, _⟩ := exists_cons_of_isWritten isWritten
  rw [skipBlanks_append blank, List.cons_append, skipBlanks_cons notBlank]

private theorem skipBlanks_quoted
    {before key : List Char} (blank : AreBlanks before) (isQuoted : IsQuoted key text)
    (rest : List Char) :
    skipBlanks (before ++ (text ++ rest)) = text ++ rest := by
  obtain ⟨pieces, _, rfl⟩ := isQuoted
  rw [skipBlanks_append blank, List.cons_append, skipBlanks_cons (by decide)]

private theorem skipBlanks_mark
    {before : List Char} {mark : Char} (blank : AreBlanks before) (notBlank : isBlank mark = false)
    (rest : List Char) :
    skipBlanks (before ++ mark :: rest) = mark :: rest := by
  rw [skipBlanks_append blank, skipBlanks_cons notBlank]

private theorem endsNumber_blanks_append
    {gap : List Char} (blank : AreBlanks gap) (ends : EndsNumber rest) :
    EndsNumber (gap ++ rest) := by
  cases gap with
  | nil => exact ends
  | cons head gap =>
      have isBlank := blank head List.mem_cons_self
      refine endsNumber_cons ?_ _
      cases isDigit : head.isDigit with
      | false => rfl
      | true =>
          simp [Json.isBlank, ne_of_isDigit isDigit] at isBlank

private theorem IsRead.readValue_append
    {value : Json} (isRead : IsRead value) (isWritten : IsWritten value text)
    (ends : EndsNumber rest) (fits : text.length ≤ limit) :
    readValue limit (text ++ rest) = some (value, rest) := by
  cases limit with
  | zero =>
      obtain ⟨head, more, rfl, _⟩ := exists_cons_of_isWritten isWritten
      exact absurd fits (Nat.not_succ_le_zero _)
  | succ limit => exact isRead limit text rest isWritten ends fits

private theorem IsRead.readValue_before
    {value : Json} {after : List Char} {mark : Char} (isRead : IsRead value)
    (isWritten : IsWritten value text) (blankAfter : AreBlanks after)
    (noDigit : mark.isDigit = false) (fits : text.length ≤ limit) :
    readValue limit (text ++ (after ++ mark :: rest)) = some (value, after ++ mark :: rest) := by
  have ends := endsNumber_blanks_append blankAfter (endsNumber_cons noDigit rest)
  exact isRead.readValue_append isWritten ends fits

/-- Items are read back one by one up to the bracket that closes the array. -/
theorem readItems_append
    {items : List Json} (areRead : ∀ item ∈ items, IsRead item) (areItems : AreItems items text)
    (fits : text.length < limit) :
    readItems limit (text ++ ']' :: rest) = some (items, rest) := by
  induction items generalizing text limit with
  | nil => cases areItems
  | cons item later inductionHypothesis =>
      obtain ⟨limit, rfl⟩ := Nat.exists_eq_succ_of_ne_zero (Nat.ne_zero_of_lt fits)
      rw [List.forall_mem_cons] at areRead
      cases areItems with
      | last blankBefore isWritten blankAfter =>
          rename_i before body after
          simp only [List.length_append] at fits
          have readItem :
              readValue limit (body ++ (after ++ ']' :: rest)) =
                some (item, after ++ ']' :: rest) :=
            areRead.1.readValue_before isWritten blankAfter (by decide) (by omega)
          have closes : skipBlanks (after ++ ']' :: rest) = ']' :: rest :=
            skipBlanks_mark blankAfter (by decide) rest
          simp only [List.append_assoc, readItems, skipBlanks_written blankBefore isWritten,
            readItem, closes]
      | more blankBefore isWritten blankAfter areLater =>
          rename_i before body after others
          simp only [List.length_append, List.length_cons] at fits
          have readItem :
              readValue limit (body ++ (after ++ ',' :: (others ++ ']' :: rest))) =
                some (item, after ++ ',' :: (others ++ ']' :: rest)) :=
            areRead.1.readValue_before isWritten blankAfter (by decide) (by omega)
          have continues :
              skipBlanks (after ++ ',' :: (others ++ ']' :: rest)) =
                ',' :: (others ++ ']' :: rest) :=
            skipBlanks_mark blankAfter (by decide) _
          have readLater : readItems limit (others ++ ']' :: rest) = some (later, rest) :=
            inductionHypothesis areRead.2 areLater (by omega)
          simp only [List.append_assoc, List.cons_append, readItems,
            skipBlanks_written blankBefore isWritten, readItem, continues, readLater,
            Option.map_some]

/-- Members are read back one by one up to the brace that closes the object. -/
theorem readMembers_append
    {members : List (String × Json)} (areRead : ∀ member ∈ members, IsRead member.2)
    (areMembers : AreMembers members text) (fits : text.length < limit) :
    readMembers limit (text ++ '}' :: rest) = some (members, rest) := by
  induction members generalizing text limit with
  | nil => cases areMembers
  | cons member later inductionHypothesis =>
      obtain ⟨limit, rfl⟩ := Nat.exists_eq_succ_of_ne_zero (Nat.ne_zero_of_lt fits)
      rw [List.forall_mem_cons] at areRead
      cases areMembers with
      | last blankBefore isQuoted blankKey blankAhead isWritten blankAfter =>
          rename_i key value before name behind ahead body after
          simp only [List.length_append, List.length_cons] at fits
          have colon (others : List Char) : skipBlanks (behind ++ ':' :: others) = ':' :: others :=
            skipBlanks_mark blankKey (by decide) others
          have readMember :
              readValue limit (body ++ (after ++ '}' :: rest)) =
                some (value, after ++ '}' :: rest) :=
            areRead.1.readValue_before isWritten blankAfter (by decide) (by omega)
          have closes : skipBlanks (after ++ '}' :: rest) = '}' :: rest :=
            skipBlanks_mark blankAfter (by decide) rest
          simp only [List.append_assoc, List.cons_append, readMembers,
            skipBlanks_quoted blankBefore isQuoted, isQuoted.readQuoted_append, colon,
            skipBlanks_written blankAhead isWritten, readMember, closes]
      | more blankBefore isQuoted blankKey blankAhead isWritten blankAfter areLater =>
          rename_i key value before name behind ahead body after others
          simp only [List.length_append, List.length_cons] at fits
          have colon (others : List Char) : skipBlanks (behind ++ ':' :: others) = ':' :: others :=
            skipBlanks_mark blankKey (by decide) others
          have readMember :
              readValue limit (body ++ (after ++ ',' :: (others ++ '}' :: rest))) =
                some (value, after ++ ',' :: (others ++ '}' :: rest)) :=
            areRead.1.readValue_before isWritten blankAfter (by decide) (by omega)
          have continues :
              skipBlanks (after ++ ',' :: (others ++ '}' :: rest)) =
                ',' :: (others ++ '}' :: rest) :=
            skipBlanks_mark blankAfter (by decide) _
          have readLater : readMembers limit (others ++ '}' :: rest) = some (later, rest) :=
            inductionHypothesis areRead.2 areLater (by omega)
          simp only [List.append_assoc, List.cons_append, readMembers,
            skipBlanks_quoted blankBefore isQuoted, isQuoted.readQuoted_append, colon,
            skipBlanks_written blankAhead isWritten, readMember, continues, readLater,
            Option.map_some]

private theorem skipBlanks_items {items : List Json} (areItems : AreItems items text)
    (rest : List Char) :
    ∃ head more, skipBlanks (text ++ rest) = head :: more ∧ head ≠ ']' := by
  cases areItems with
  | last blankBefore isWritten _ =>
      simp only [List.append_assoc, skipBlanks_written blankBefore isWritten]
      obtain ⟨head, more, rfl, _, notClosing⟩ := exists_cons_of_isWritten isWritten
      exact ⟨head, _, rfl, notClosing⟩
  | more blankBefore isWritten _ _ =>
      simp only [List.append_assoc, skipBlanks_written blankBefore isWritten]
      obtain ⟨head, more, rfl, _, notClosing⟩ := exists_cons_of_isWritten isWritten
      exact ⟨head, _, rfl, notClosing⟩

private theorem skipBlanks_members
    {members : List (String × Json)} (areMembers : AreMembers members text) (rest : List Char) :
    ∃ more, skipBlanks (text ++ rest) = '"' :: more := by
  cases areMembers with
  | last blankBefore isQuoted _ _ _ _ =>
      simp only [List.append_assoc, skipBlanks_quoted blankBefore isQuoted]
      obtain ⟨pieces, _, rfl⟩ := isQuoted
      exact ⟨_, rfl⟩
  | more blankBefore isQuoted _ _ _ _ _ =>
      simp only [List.append_assoc, skipBlanks_quoted blankBefore isQuoted]
      obtain ⟨pieces, _, rfl⟩ := isQuoted
      exact ⟨_, rfl⟩

private theorem readValue_numeral
    {whole : Int} {numeral : List Char} (isNumeral : IsNumeral whole numeral)
    (ends : EndsNumber rest) :
    readValue (limit + 1) (numeral ++ rest) = some (.number whole, rest) := by
  have read := (readNumber_eq_some_iff _ _ _).mpr ⟨ends, whole, numeral, rfl, isNumeral, rfl⟩
  obtain ⟨head, more, rfl, isFirst⟩ := isNumeral.exists_cons
  rw [List.cons_append] at read ⊢
  unfold readValue
  split
  -- None of the marks that other values begin with begins a number.
  all_goals first
    | exact read
    | rename_i heads
      rw [(List.cons.inj heads).1] at isFirst
      exact absurd isFirst (by decide)

theorem isRead_array {items : List Json} (areRead : ∀ item ∈ items, IsRead item) :
    IsRead (.array items) := by
  intro limit text rest isWritten ends fits
  cases isWritten with
  | emptyArray blank =>
      rename_i gap
      have closes : skipBlanks (gap ++ ']' :: rest) = ']' :: rest :=
        skipBlanks_mark blank (by decide) rest
      simp only [List.append_assoc, List.cons_append, List.nil_append, readValue, closes]
  | array areItems =>
      rename_i body
      simp only [List.length_cons, List.length_append, List.length_nil] at fits
      have readBody : readItems limit (body ++ ']' :: rest) = some (items, rest) :=
        readItems_append areRead areItems (by omega)
      obtain ⟨head, more, begins, notClosing⟩ := skipBlanks_items areItems (']' :: rest)
      simp only [List.append_assoc, List.cons_append, List.nil_append, readValue, begins, readBody,
        Option.map_some]
      split
      · rename_i heads
        exact absurd (List.cons.inj heads).1 notClosing
      · rfl

theorem isRead_object
    {members : List (String × Json)} (areRead : ∀ member ∈ members, IsRead member.2) :
    IsRead (.object members) := by
  intro limit text rest isWritten ends fits
  cases isWritten with
  | emptyObject blank =>
      rename_i gap
      have closes : skipBlanks (gap ++ '}' :: rest) = '}' :: rest :=
        skipBlanks_mark blank (by decide) rest
      simp only [List.append_assoc, List.cons_append, List.nil_append, readValue, closes]
  | object areMembers =>
      rename_i body
      simp only [List.length_cons, List.length_append, List.length_nil] at fits
      have readBody : readMembers limit (body ++ '}' :: rest) = some (members, rest) :=
        readMembers_append areRead areMembers (by omega)
      obtain ⟨more, begins⟩ := skipBlanks_members areMembers ('}' :: rest)
      simp only [List.append_assoc, List.cons_append, List.nil_append, readValue, begins, readBody,
        Option.map_some]
      rfl

/-- Every value is read from every way of writing it. -/
theorem isRead (value : Json) : IsRead value := by
  induction value using Json.inductionOn with
  | null =>
      intro limit text rest isWritten ends fits
      cases isWritten
      simp [readValue, readWord]
  | bool value =>
      intro limit text rest isWritten ends fits
      cases isWritten <;> simp [readValue, readWord]
  | number value =>
      intro limit text rest isWritten ends fits
      cases isWritten with
      | number isNumeral => exact readValue_numeral isNumeral ends
  | string value =>
      intro limit text rest isWritten ends fits
      cases isWritten with
      | string isQuoted =>
          have read := isQuoted.readQuoted_append rest
          obtain ⟨pieces, _, rfl⟩ := isQuoted
          rw [List.cons_append] at read ⊢
          simp only [readValue, read, Option.map_some]
  | array items inductionHypothesis => exact isRead_array inductionHypothesis
  | object members inductionHypothesis => exact isRead_object inductionHypothesis

/-! ## Documents -/

/-- The parser reads exactly the documents, each as the value that it stands for. -/
theorem parse_eq_some_iff (text : List Char) (value : Json) :
    parse text = some value ↔ IsDocument value text := by
  constructor
  · intro parsed
    unfold parse at parsed
    split at parsed
    · cases parsed
    · rename_i found behind read
      split_ifs at parsed with nothing
      cases parsed
      obtain ⟨before, blankBefore, isText⟩ := exists_skipBlanks text
      obtain ⟨after, blankAfter, isBehind⟩ := exists_skipBlanks behind
      obtain ⟨body, isWritten, isBody⟩ := (readsWritten _).value read
      rw [nothing, List.append_nil] at isBehind
      refine ⟨before, body, after, blankBefore, isWritten, blankAfter, ?_⟩
      rw [List.append_assoc, ← isBehind, ← isBody, ← isText]
  · rintro ⟨before, body, after, blankBefore, isWritten, blankAfter, rfl⟩
    have ends : EndsNumber after := by
      rw [← List.append_nil after]
      exact endsNumber_blanks_append blankAfter (fun digit none => nomatch none)
    have read :
        readValue (before ++ body ++ after).length (body ++ after) = some (value, after) :=
      (isRead value).readValue_append isWritten ends (by simp only [List.length_append]; omega)
    have skipped : skipBlanks (before ++ body ++ after) = body ++ after := by
      rw [List.append_assoc, skipBlanks_written blankBefore isWritten]
    simp only [parse, skipped, read, skipBlanks_of_areBlanks blankAfter, if_true]

/-- A document stands for one value only. -/
theorem IsDocument.unique
    {value other : Json} {text : List Char} (isDocument : IsDocument value text)
    (isOther : IsDocument other text) :
    value = other := by
  rw [← parse_eq_some_iff] at isDocument isOther
  exact Option.some.inj (isDocument.symm.trans isOther)

end SourceCritic.Json
