import Mathlib
import SourceCritic.Proofs.Yaml.Scalars

/-!
# The tokens of a simple mapping

A simple mapping fills the whole text, one member a line.  Its keys are words, and its values are
words, quoted texts and sequences of quoted texts in brackets.

The scanner is followed token by token.  Between two tokens of such a text it is in front of a key,
within the mapping or within a sequence, and each lemma says which token leads from where to where.
A scanner is described up to the white space in front of it, which belongs to no token.
-/

namespace SourceCritic.Yaml

/-! ## Runs of a scanner -/

namespace Scanner

/-- One token is read.  Behind the white space that follows fewer characters are left, unless the
text ends with the token. -/
def Step (scanner after : Scanner) : Prop :=
  scanner.ended = false ∧ scanner.next = .ok after ∧
    (after.ended = true ∨
      after.skipSpace.cursor.rest.length < scanner.skipSpace.cursor.rest.length)

/-- Every scanner of one kind gets, token by token, to one of another kind. -/
def Leads (before behind : Scanner → Prop) : Prop :=
  ∀ scanner, before scanner → ∃ after, Relation.ReflTransGen Step scanner after ∧ behind after

theorem Leads.trans {first second third : Scanner → Prop}
    (leads : Leads first second) (later : Leads second third) : Leads first third := by
  intro scanner isFirst
  obtain ⟨between, reached, isSecond⟩ := leads scanner isFirst
  obtain ⟨last, reachedLast, isThird⟩ := later between isSecond
  exact ⟨last, reached.trans reachedLast, isThird⟩

private theorem leads_of_step {before behind : Scanner → Prop}
    (step : ∀ scanner, before scanner → ∃ after, Step scanner after ∧ behind after) :
    Leads before behind := by
  intro scanner isBefore
  obtain ⟨after, isStep, isBehind⟩ := step scanner isBefore
  exact ⟨after, .single isStep, isBehind⟩

end Scanner

/-- The tokens of a text are those of the scanner that has reached its end. -/
theorem TokenStream.ofScanner_of_reaches
    {scanner last : Scanner} (reaches : Relation.ReflTransGen Scanner.Step scanner last)
    (ended : last.ended = true) {fuel : Nat}
    (enough : scanner.ended = true ∨ scanner.skipSpace.cursor.rest.length < fuel) :
    ofScanner fuel scanner = { tokens := last.tokens.toList, error := none } := by
  -- The induction is on the tokens from the first one on.  Only the last one may take no character,
  -- and behind it no fuel is needed.
  induction reaches using Relation.ReflTransGen.head_induction_on generalizing fuel with
  | refl =>
      cases fuel with
      | zero => rfl
      | succ fuel => rw [ofScanner, if_pos ended]
  | head step reaches inductionHypothesis =>
      obtain ⟨notEnded, isNext, progress⟩ := step
      have isLess := enough.resolve_left (by simp [notEnded])
      obtain ⟨less, rfl⟩ := Nat.exists_eq_add_of_lt isLess
      have enoughLater := progress.imp_right fun fewer =>
        Nat.lt_of_lt_of_le fewer (Nat.le_add_right _ less)
      simp only [ofScanner, notEnded, isNext, Bool.false_eq_true, if_false]
      exact inductionHypothesis enoughLater

namespace Scanner

/-! ## White space between two tokens -/

variable {scanner : Scanner}

private theorem skipFrom_of_isSolid
    {rest : List Char} (isSolid : IsSolid rest) (inFlow keyAllowed : Bool) (mark : Mark) :
    skipFrom inFlow false keyAllowed mark rest = (keyAllowed, { rest, mark }) := by
  cases rest with
  | nil => rfl
  | cons head later =>
      obtain ⟨notBlank, notBreak, notComment, notOrderMark⟩ := isSolid head rfl
      have notWhite : head ≠ ' ' ∧ head ≠ '\t' := by
        simpa [isBlank] using notBlank
      unfold skipFrom
      simp [notBreak, notWhite, notComment, notOrderMark]

private theorem skipFrom_space
    {rest : List Char} (isSolid : IsSolid rest) (inFlow keyAllowed : Bool) (mark : Mark) :
    skipFrom inFlow false keyAllowed mark (' ' :: rest) =
      (keyAllowed, { rest, mark := mark.advance 1 }) := by
  have notBreak : isBreak ' ' = false := by decide
  rw [← skipFrom_of_isSolid isSolid inFlow]
  conv_lhs => unfold skipFrom
  simp [notBreak]

private theorem skipFrom_newLine
    {rest : List Char} (isSolid : IsSolid rest) (keyAllowed : Bool) (mark : Mark) :
    skipFrom false false keyAllowed mark ('\n' :: rest) =
      (true, { rest, mark := mark.newLine 1 }) := by
  have newLine : isBreak '\n' = true := by decide
  rw [← skipFrom_of_isSolid isSolid false]
  conv_lhs => unfold skipFrom
  simp [newLine]

theorem skipSpace_of_isSolid (isSolid : IsSolid scanner.cursor.rest) :
    scanner.skipSpace = scanner := by
  rw [skipSpace, skipFrom_of_isSolid isSolid]
  rfl

/-! ## Candidates that are given up -/

/-- Candidates are given up without an error, unless one that has to be a key is too far behind. -/
private theorem dropStale_eq_ok
    (optional :
      ∀ entry ∈ scanner.candidates, ∀ candidate ∈ entry, candidate.required = true →
        scanner.isStale candidate = false) :
    scanner.dropStale =
      .ok
        { scanner with
          candidates := scanner.candidates.map fun candidate =>
            candidate.filter fun tested => !scanner.isStale tested } := by
  have noneRequired :
      (scanner.candidates.reverse.filterMap fun candidate =>
        candidate.filter scanner.isStale).find? (·.required) = none := by
    rw [List.find?_eq_none]
    intro candidate member required
    obtain ⟨entry, isEntry, isStale⟩ := List.mem_filterMap.mp member
    obtain ⟨isCandidate, stale⟩ := Option.filter_eq_some_iff.mp isStale
    rw [optional entry (List.mem_reverse.mp isEntry) candidate isCandidate required] at stale
    cases stale
  simp only [dropStale, noneRequired]

private theorem isStale_eq_false
    {candidate : KeyCandidate} (sameLine : candidate.mark.line = scanner.mark.line)
    (near : scanner.mark.index ≤ candidate.mark.index + 1024) :
    scanner.isStale candidate = false := by
  have notFar := Nat.not_lt.mpr near
  simp [isStale, sameLine, notFar]

private theorem dropStale_of_near
    {candidate : KeyCandidate} (isCandidate : scanner.candidates = [some candidate])
    (sameLine : candidate.mark.line = scanner.mark.line)
    (near : scanner.mark.index ≤ candidate.mark.index + 1024) :
    scanner.dropStale = .ok scanner := by
  have near := isStale_eq_false sameLine near
  rw [dropStale_eq_ok]
  · simp only [isCandidate, List.map_singleton, Option.filter_some, near, Bool.not_false, if_true]
    rw [← isCandidate]
  · simp [isCandidate, near]

private theorem unroll_eq_self {column : Int} (shallow : scanner.indent ≤ column) :
    scanner.unroll column = scanner := by
  rw [unroll]
  split
  · rfl
  · have notDeeper : ¬ scanner.indent > column := not_lt.mpr shallow
    cases indents : scanner.indents with
    | nil => rw [unrollFrom, ← indents]
    | cons next outer => rw [unrollFrom, if_neg notDeeper, ← indents]

/-- The next token is fetched behind the white space, once the candidates that are too far behind
have been given up. -/
theorem next_of_fetchToken
    {skipped kept fetched : Scanner} (isSkipped : scanner.skipSpace = skipped)
    (isKept : skipped.dropStale = .ok kept) (shallow : kept.indent ≤ kept.mark.column)
    (isFetched : kept.fetchToken = .ok fetched) :
    scanner.next = fetched.dropStale := by
  rw [next, isSkipped, isKept]
  simp only [unroll_eq_self shallow, isFetched]

/-! ## Places in a simple mapping -/

/-- The scanner in a mapping that fills the whole text. -/
def inMapping (keyAllowed : Bool) (tokens : List Token) (mark : Mark) (rest : List Char) :
    Scanner where
  cursor := { rest, mark }
  tokens := tokens.toArray
  indent := 0
  indents := [-1]
  keyAllowed := keyAllowed
  candidates := [none]
  ended := false

/-- The scanner in a sequence in brackets within such a mapping. -/
def inSequence (candidate : Option KeyCandidate) (keyAllowed : Bool) (tokens : List Token)
    (mark : Mark) (rest : List Char) : Scanner :=
  { inMapping keyAllowed tokens mark rest with candidates := [candidate, none] }

/-- The scanner in front of the first key, which begins the mapping, or of a later one. -/
def inFront (isFirst : Bool) (tokens : List Token) (mark : Mark) (rest : List Char) : Scanner :=
  { inMapping true tokens mark rest with
    indent := if isFirst then -1 else 0
    indents := if isFirst then [] else [-1] }

private theorem skipSpace_inMapping_space
    (tokens : List Token) (mark : Mark) {rest : List Char} (isSolid : IsSolid rest) :
    (inMapping false tokens mark (' ' :: rest)).skipSpace =
      inMapping false tokens (mark.advance 1) rest := by
  rw [skipSpace]
  simp only [inMapping, Scanner.mark, skipFrom_space isSolid]

/-- Behind the end of a line, the scanner stands in front of the next one. -/
theorem skipSpace_inMapping_of_endsLine
    {rest more : List Char} {broken : Bool} (ends : EndsLine rest broken more)
    (tokens : List Token) (mark : Mark) :
    ∃ after,
      (inMapping false tokens mark rest).skipSpace = inMapping broken tokens after more ∧
        (broken = true → after.column = 0) := by
  cases ends with
  | ofText => exact ⟨mark, rfl, nofun⟩
  | ofBreak isSolid =>
      refine ⟨mark.newLine 1, ?_, fun _ => rfl⟩
      rw [skipSpace]
      simp only [inMapping, inFlow, List.length_singleton, Nat.lt_irrefl, decide_false,
        Scanner.mark, skipFrom_newLine isSolid]

private theorem skipSpace_inSequence_space
    (candidate : Option KeyCandidate) (keyAllowed : Bool) (tokens : List Token) (mark : Mark)
    {rest : List Char} (isSolid : IsSolid rest) :
    (inSequence candidate keyAllowed tokens mark (' ' :: rest)).skipSpace =
      inSequence candidate keyAllowed tokens (mark.advance 1) rest := by
  rw [skipSpace]
  simp only [inSequence, inMapping, Scanner.mark, skipFrom_space isSolid]

/-- The scanner is in front of a line. -/
def AtKey (isFirst : Bool) (kinds : List TokenKind) (rest : List Char) (scanner : Scanner) :
    Prop :=
  ∃ tokens mark,
    tokens.map (·.kind) = kinds ∧ mark.column = 0 ∧
      scanner.skipSpace = inFront isFirst tokens mark rest

/-- The scanner is in a mapping.  Where a key is allowed it is in front of a line. -/
def InMapping (keyAllowed : Bool) (kinds : List TokenKind) (rest : List Char)
    (scanner : Scanner) : Prop :=
  ∃ tokens mark,
    tokens.map (·.kind) = kinds ∧ (keyAllowed = true → mark.column = 0) ∧
      scanner.skipSpace = inMapping keyAllowed tokens mark rest

/-- The scanner is in a sequence, where nothing has to be a key. -/
def InSequence (keyAllowed : Bool) (kinds : List TokenKind) (rest : List Char)
    (scanner : Scanner) : Prop :=
  ∃ candidate tokens mark,
    tokens.map (·.kind) = kinds ∧ (∀ given ∈ candidate, given.required = false) ∧
      scanner.skipSpace = inSequence candidate keyAllowed tokens mark rest

/-- The scanner has reached the end of the text. -/
def AtEnd (kinds : List TokenKind) (scanner : Scanner) : Prop :=
  scanner.ended = true ∧ scanner.tokens.toList.map (·.kind) = kinds

private theorem step_of_next
    {skipped after behind : Scanner} (isSkipped : scanner.skipSpace = skipped)
    (notEnded : skipped.ended = false) (isNext : scanner.next = .ok after)
    (isBehind : after.skipSpace = behind)
    (fewer : behind.cursor.rest.length < skipped.cursor.rest.length) :
    Step scanner after := by
  subst isSkipped isBehind
  exact ⟨notEnded, isNext, .inr fewer⟩

/-! ## Keys -/

private theorem startsPlain_word
    {head : Char} (isWord : IsWordCharacter head) (inFlow : Bool) (rest : List Char) :
    startsPlain inFlow head rest = true := by
  rw [startsPlain, if_neg (isWord.ne '-' (by decide)),
    if_neg (by simp [isWord.ne '?' (by decide), isWord.ne ':' (by decide)]),
    isWord.isBlank_eq_false, isWord.isPrintable.isBreak_eq_false,
    isWord.not_contains (by simp; decide)]
  rfl

theorem fetchToken_word
    {head : Char} {later : List Char} (isWord : IsWordCharacter head)
    (rest : scanner.cursor.rest = head :: later) :
    scanner.fetchToken = scanner.fetchPlain := by
  rw [fetchToken, rest]
  simp [isWord.not_startsDocumentMark, startsPlain_word isWord, isWord.ne '%' (by decide),
    isWord.ne '[' (by decide), isWord.ne '{' (by decide), isWord.ne ']' (by decide),
    isWord.ne '}' (by decide), isWord.ne ',' (by decide), isWord.ne '-' (by decide),
    isWord.ne '?' (by decide), isWord.ne ':' (by decide), isWord.ne '*' (by decide),
    isWord.ne '&' (by decide), isWord.ne '!' (by decide), isWord.ne '|' (by decide),
    isWord.ne '>' (by decide), isWord.ne '\'' (by decide), isWord.ne '"' (by decide)]

/-- The scanner between a key and the colon behind it. -/
def behindKey (isFirst : Bool) (candidate : KeyCandidate) (tokens : List Token) (mark : Mark)
    (rest : List Char) : Scanner :=
  { inFront isFirst tokens mark rest with
    keyAllowed := false
    candidates := [some candidate] }

private theorem fetchPlain_inFront
    {result : Plain.Result} (isFirst : Bool) (tokens : List Token) (mark : Mark)
    (rest : List Char) (unbroken : result.broken = false)
    (scanned :
      Plain.scan false ((inFront isFirst tokens mark rest).indent + 1) { rest, mark } =
        .ok result) :
    ∃ required,
      (inFront isFirst tokens mark rest).fetchPlain =
        .ok
          (behindKey isFirst { number := tokens.length, mark, required }
            (tokens ++ [{ kind := .scalar .plain result.text, first := mark, last := result.last }])
            result.after.mark result.after.rest) := by
  refine ⟨decide ((inFront isFirst tokens mark rest).indent = mark.column), ?_⟩
  simp only [inFront, inMapping] at scanned
  simp [fetchPlain, saveCandidate, dropCandidate, inFront, inMapping, inFlow, scanned, unbroken,
    behindKey, allowKey, push, Scanner.mark]
  rfl

/-- In front of a line, the scanner reads its key and keeps it as a candidate. -/
theorem next_key
    {word rest : List Char} (isWord : IsWord word) (short : word.length ≤ 1024)
    {isFirst : Bool} {tokens : List Token} {mark : Mark}
    (isSkipped : scanner.skipSpace = inFront isFirst tokens mark (word ++ ':' :: ' ' :: rest)) :
    ∃ token required,
      scanner.next =
          .ok
            (behindKey isFirst { number := tokens.length, mark, required } (tokens ++ [token])
              (mark.advance word.length) (':' :: ' ' :: rest)) ∧
        token.kind = .scalar .plain word := by
  obtain ⟨head, later, rfl⟩ := List.exists_cons_of_ne_nil isWord.nonempty
  have isWordHead := isWord.characters head List.mem_cons_self
  obtain ⟨last, scanned⟩ := Plain.scan_key isWord.characters (_ + 1) mark rest
  obtain ⟨required, isFetched⟩ := fetchPlain_inFront isFirst tokens mark _ rfl scanned
  have shallow :
      (inFront isFirst tokens mark (head :: later ++ ':' :: ' ' :: rest)).indent ≤
        (inFront isFirst tokens mark (head :: later ++ ':' :: ' ' :: rest)).mark.column := by
    cases isFirst <;> simp [inFront, inMapping]
  have isNext :=
    next_of_fetchToken isSkipped rfl shallow ((fetchToken_word isWordHead rfl).trans isFetched)
  have near : mark.index + (head :: later).length ≤ mark.index + 1024 :=
    Nat.add_le_add_left short _
  exact ⟨_, required, isNext.trans (dropStale_of_near rfl rfl near), rfl⟩

/-- The colon announces the key in front of it, and with the first key the mapping. -/
theorem next_colon
    (isFirst : Bool) {tokens : List Token} (token : Token) (candidate : KeyCandidate)
    (mark : Mark) (number : candidate.number = tokens.length)
    (atMargin : candidate.mark.column = 0) (sameLine : candidate.mark.line = mark.line)
    (near : mark.index ≤ candidate.mark.index + 1024) (rest : List Char) :
    ∃ opening key value,
      (behindKey isFirst candidate (tokens ++ [token]) mark (':' :: ' ' :: rest)).next =
          .ok
            (inMapping false (tokens ++ (opening ++ [key, token, value])) (mark.advance 1)
              (' ' :: rest)) ∧
        opening.map (·.kind) = (if isFirst then [.blockMappingStart] else []) ∧
          key.kind = .key ∧ value.kind = .value := by
  have isSolid : IsSolid (':' :: ' ' :: rest) :=
    isSolid_cons (by decide) _
  have isKept :
      (behindKey isFirst candidate (tokens ++ [token]) mark (':' :: ' ' :: rest)).dropStale =
        .ok (behindKey isFirst candidate (tokens ++ [token]) mark (':' :: ' ' :: rest)) :=
    dropStale_of_near rfl sameLine near
  have shallow :
      (behindKey isFirst candidate (tokens ++ [token]) mark (':' :: ' ' :: rest)).indent ≤
        (behindKey isFirst candidate (tokens ++ [token]) mark
          (':' :: ' ' :: rest)).mark.column := by
    cases isFirst <;> simp [behindKey, inFront, inMapping]
  let key : Token := { kind := .key, first := candidate.mark, last := candidate.mark }
  let value : Token := { kind := .value, first := mark, last := mark.advance 1 }
  let opening : List Token :=
    if isFirst then
      [{ kind := .blockMappingStart, first := candidate.mark, last := candidate.mark }]
    else
      []
  have isFetched :
      (behindKey isFirst candidate (tokens ++ [token]) mark (':' :: ' ' :: rest)).fetchToken =
        .ok
          (inMapping false (tokens ++ (opening ++ [key, token, value])) (mark.advance 1)
            (' ' :: rest)) := by
    have blank : startsBlank (' ' :: rest) = true := rfl
    have notMark : startsDocumentMark mark.column (':' :: ' ' :: rest) = false := by
      simp [startsDocumentMark]
    cases isFirst <;>
      simp [fetchToken, behindKey, inFront, inMapping, Scanner.mark, notMark, blank, fetchValue,
        insert, roll, inFlow, number, atMargin, allowKey, pushNext, push, Cursor.skip, opening,
        key, value]
  refine
    ⟨opening, key, value,
      (next_of_fetchToken (skipSpace_of_isSolid isSolid) isKept shallow isFetched).trans rfl, ?_,
      rfl, rfl⟩
  cases isFirst <;> rfl

/-- A key and the colon behind it, of which the first one begins the mapping. -/
theorem leads_key
    {word rest : List Char} (isWord : IsWord word) (short : word.length ≤ 1024)
    (isSolid : IsSolid rest) (isFirst : Bool) (kinds : List TokenKind) :
    Leads (AtKey isFirst kinds (word ++ ':' :: ' ' :: rest))
      (InMapping false
        (kinds ++
          ((if isFirst then [.blockMappingStart] else []) ++
            [.key, .scalar .plain word, .value]))
        rest) := by
  rintro scanner ⟨tokens, mark, rfl, atMargin, isSkipped⟩
  obtain ⟨token, required, isKey, kind⟩ := next_key isWord short isSkipped
  obtain ⟨opening, key, value, isColon, openingKinds, keyKind, valueKind⟩ :=
    next_colon isFirst token { number := tokens.length, mark, required }
      (mark.advance word.length) rfl atMargin rfl (Nat.add_le_add_left short _) rest
  have isColonSkipped :
      (behindKey isFirst { number := tokens.length, mark, required } (tokens ++ [token])
        (mark.advance word.length) (':' :: ' ' :: rest)).skipSpace = _ :=
    skipSpace_of_isSolid (isSolid_cons (by decide) _)
  have isValueSkipped :=
    skipSpace_inMapping_space (tokens ++ (opening ++ [key, token, value]))
      ((mark.advance word.length).advance 1) isSolid
  have firstStep :=
    step_of_next isSkipped rfl isKey isColonSkipped
      (by simpa [behindKey, inFront, inMapping] using List.length_pos_iff.mpr isWord.nonempty)
  have secondStep :=
    step_of_next isColonSkipped rfl isColon isValueSkipped
      (by simp [behindKey, inFront, inMapping])
  refine ⟨_, .tail (.single firstStep) secondStep, _, _, ?_, nofun, isValueSkipped⟩
  simp [kind, openingKinds, keyKind, valueKind]

/-! ## Values of one line -/

private theorem fetchToken_quote {later : List Char} (rest : scanner.cursor.rest = '"' :: later) :
    scanner.fetchToken = scanner.fetchCandidate (Quoted.scan false) := by
  rw [fetchToken, rest]
  simp [startsDocumentMark]

/-- A word as a value is one token up to the end of its line. -/
theorem leads_word
    {word rest more : List Char} {broken : Bool} (isWord : IsWord word)
    (ends : EndsLine rest broken more) (kinds : List TokenKind) :
    Leads (InMapping false kinds (word ++ rest))
      (InMapping broken (kinds ++ [.scalar .plain word]) more) := by
  refine leads_of_step ?_
  rintro scanner ⟨tokens, mark, rfl, -, isSkipped⟩
  obtain ⟨last, after, scanned, atMargin⟩ :=
    Plain.scan_word isWord.characters ends Int.one_pos mark
  let token : Token := { kind := .scalar .plain word, first := mark, last }
  have isFetched :
      (inMapping false tokens mark (word ++ rest)).fetchToken =
        .ok (inMapping broken (tokens ++ [token]) after more) := by
    obtain ⟨head, later, rfl⟩ := List.exists_cons_of_ne_nil isWord.nonempty
    rw [fetchToken_word (isWord.characters head List.mem_cons_self) rfl]
    simp only [List.cons_append] at scanned
    simp [fetchPlain, saveCandidate, inMapping, inFlow, scanned, allowKey, push, Scanner.mark,
      token]
  have isNext := next_of_fetchToken isSkipped rfl (Int.natCast_nonneg _) isFetched
  have isBehind : (inMapping broken (tokens ++ [token]) after more).skipSpace = _ :=
    skipSpace_of_isSolid ends.isSolid
  refine ⟨_, step_of_next isSkipped rfl isNext isBehind ?_, _, _, ?_, atMargin, isBehind⟩
  · have fewer := ends.length_le
    have nonempty := List.length_pos_iff.mpr isWord.nonempty
    simp [inMapping]
    omega
  · simp [token]

/-- A quoted text as a value is one token, whatever stands between the quotes. -/
theorem leads_quoted
    {text rest more : List Char} {broken : Bool}
    (arePrintable : ∀ character ∈ text, IsPrintable character)
    (ends : EndsLine rest broken more) (kinds : List TokenKind) :
    Leads (InMapping false kinds (quoted text ++ rest))
      (InMapping broken (kinds ++ [.scalar .doubleQuoted text]) more) := by
  refine leads_of_step ?_
  rintro scanner ⟨tokens, mark, rfl, -, isSkipped⟩
  obtain ⟨token, behind, scanned, kind⟩ := Quoted.scan_quoted arePrintable mark rest
  have isFetched :
      (inMapping false tokens mark (quoted text ++ rest)).fetchToken =
        .ok (inMapping false (tokens ++ [token]) behind rest) := by
    rw [fetchToken_quote rfl]
    simp [fetchCandidate, saveCandidate, inMapping, scanned, allowKey, push]
  have isNext := next_of_fetchToken isSkipped rfl (Int.natCast_nonneg _) isFetched
  obtain ⟨after, isBehind, atMargin⟩ :=
    skipSpace_inMapping_of_endsLine ends (tokens ++ [token]) behind
  refine ⟨_, step_of_next isSkipped rfl isNext isBehind ?_, _, _, ?_, atMargin, isBehind⟩
  · have fewer := ends.length_le
    simp [inMapping, quoted]
    omega
  · simp [kind]

/-! ## Sequences -/

private theorem dropStale_inSequence
    {candidate : Option KeyCandidate} (optional : ∀ given ∈ candidate, given.required = false)
    (keyAllowed : Bool) (tokens : List Token) (mark : Mark) (rest : List Char) :
    ∃ kept,
      (inSequence candidate keyAllowed tokens mark rest).dropStale =
          .ok (inSequence kept keyAllowed tokens mark rest) ∧
        ∀ given ∈ kept, given.required = false := by
  refine ⟨_, dropStale_eq_ok ?_, ?_⟩
  · -- Nothing has to be a key, so no candidate can be missed.
    intro entry isEntry given isGiven required
    rcases List.mem_pair.mp isEntry with rfl | rfl
    · rw [optional given isGiven] at required
      cases required
    · cases isGiven
  · intro given isKept
    exact optional given (Option.filter_eq_some_iff.mp isKept).1

private theorem dropCandidate_inSequence
    {candidate : Option KeyCandidate} (optional : ∀ given ∈ candidate, given.required = false)
    (keyAllowed : Bool) (tokens : List Token) (mark : Mark) (rest : List Char) :
    (inSequence candidate keyAllowed tokens mark rest).dropCandidate =
      .ok (inSequence none keyAllowed tokens mark rest) := by
  cases candidate with
  | none => rfl
  | some given => simp [dropCandidate, inSequence, optional given rfl]

theorem leads_open {rest : List Char} (isSolid : IsSolid rest) (kinds : List TokenKind) :
    Leads (InMapping false kinds ('[' :: rest))
      (InSequence true (kinds ++ [.flowSequenceStart]) rest) := by
  refine leads_of_step ?_
  rintro scanner ⟨tokens, mark, rfl, -, isSkipped⟩
  let token : Token := { kind := .flowSequenceStart, first := mark, last := mark.advance 1 }
  have isFetched :
      (inMapping false tokens mark ('[' :: rest)).fetchToken =
        .ok (inSequence none true (tokens ++ [token]) (mark.advance 1) rest) := by
    simp [fetchToken, startsDocumentMark, inMapping, inSequence, fetchFlowStart, saveCandidate,
      allowKey, pushNext, push, Cursor.skip, Scanner.mark, token]
  have isNext := next_of_fetchToken isSkipped rfl (Int.natCast_nonneg _) isFetched
  have isBehind :
      (inSequence none true (tokens ++ [token]) (mark.advance 1) rest).skipSpace = _ :=
    skipSpace_of_isSolid isSolid
  refine ⟨_, step_of_next isSkipped rfl isNext isBehind ?_, none, _, _, ?_, by simp, isBehind⟩
  · simp [inSequence, inMapping]
  · simp [token]

theorem leads_item
    {text rest : List Char} (arePrintable : ∀ character ∈ text, IsPrintable character)
    (isSolid : IsSolid rest) (kinds : List TokenKind) :
    Leads (InSequence true kinds (quoted text ++ rest))
      (InSequence false (kinds ++ [.scalar .doubleQuoted text]) rest) := by
  refine leads_of_step ?_
  rintro scanner ⟨candidate, tokens, mark, rfl, optional, isSkipped⟩
  obtain ⟨token, behind, scanned, kind⟩ := Quoted.scan_quoted arePrintable mark rest
  obtain ⟨kept, isKept, keptOptional⟩ :=
    dropStale_inSequence optional true tokens mark (quoted text ++ rest)
  let fresh : KeyCandidate := { number := tokens.length, mark, required := false }
  have isFetched :
      (inSequence kept true tokens mark (quoted text ++ rest)).fetchToken =
        .ok (inSequence (some fresh) false (tokens ++ [token]) behind rest) := by
    rw [fetchToken_quote rfl]
    simp only [fetchCandidate, saveCandidate, dropCandidate_inSequence keptOptional]
    simp [inSequence, inMapping, inFlow, scanned, allowKey, push, Scanner.mark, fresh]
  have isNext := next_of_fetchToken isSkipped isKept (Int.natCast_nonneg _) isFetched
  have freshOptional : ∀ given ∈ some fresh, given.required = false := by
    rintro _ ⟨⟩
    rfl
  obtain ⟨last, isLast, lastOptional⟩ :=
    dropStale_inSequence freshOptional false (tokens ++ [token]) behind rest
  have isBehind : (inSequence last false (tokens ++ [token]) behind rest).skipSpace = _ :=
    skipSpace_of_isSolid isSolid
  refine
    ⟨_, step_of_next isSkipped rfl (isNext.trans isLast) isBehind ?_, _, _, _, ?_, lastOptional,
      isBehind⟩
  · simp [inSequence, inMapping, quoted]
    omega
  · simp [kind]

theorem leads_comma {rest : List Char} (isSolid : IsSolid rest) (kinds : List TokenKind) :
    Leads (InSequence false kinds (',' :: ' ' :: rest))
      (InSequence true (kinds ++ [.flowEntry]) rest) := by
  refine leads_of_step ?_
  rintro scanner ⟨candidate, tokens, mark, rfl, optional, isSkipped⟩
  obtain ⟨kept, isKept, keptOptional⟩ :=
    dropStale_inSequence optional false tokens mark (',' :: ' ' :: rest)
  let token : Token := { kind := .flowEntry, first := mark, last := mark.advance 1 }
  have isFetched :
      (inSequence kept false tokens mark (',' :: ' ' :: rest)).fetchToken =
        .ok (inSequence none true (tokens ++ [token]) (mark.advance 1) (' ' :: rest)) := by
    have isEntry :
        (inSequence kept false tokens mark (',' :: ' ' :: rest)).fetchToken =
          (inSequence kept false tokens mark (',' :: ' ' :: rest)).fetchFlowEntry := by
      simp [fetchToken, inSequence, inMapping, startsDocumentMark]
    rw [isEntry, fetchFlowEntry, dropCandidate_inSequence keptOptional]
    simp [inSequence, inMapping, allowKey, pushNext, push, Cursor.skip, Scanner.mark, token]
  have isNext := next_of_fetchToken isSkipped isKept (Int.natCast_nonneg _) isFetched
  have isBehind :=
    skipSpace_inSequence_space none true (tokens ++ [token]) (mark.advance 1) isSolid
  refine ⟨_, step_of_next isSkipped rfl isNext isBehind ?_, none, _, _, ?_, by simp, isBehind⟩
  · simp [inSequence, inMapping]
  · simp [token]

theorem leads_close
    {rest more : List Char} {broken : Bool} (ends : EndsLine rest broken more)
    (keyAllowed : Bool) (kinds : List TokenKind) :
    Leads (InSequence keyAllowed kinds (']' :: rest))
      (InMapping broken (kinds ++ [.flowSequenceEnd]) more) := by
  refine leads_of_step ?_
  rintro scanner ⟨candidate, tokens, mark, rfl, optional, isSkipped⟩
  obtain ⟨kept, isKept, keptOptional⟩ :=
    dropStale_inSequence optional keyAllowed tokens mark (']' :: rest)
  let token : Token := { kind := .flowSequenceEnd, first := mark, last := mark.advance 1 }
  have isFetched :
      (inSequence kept keyAllowed tokens mark (']' :: rest)).fetchToken =
        .ok (inMapping false (tokens ++ [token]) (mark.advance 1) rest) := by
    have isEnd :
        (inSequence kept keyAllowed tokens mark (']' :: rest)).fetchToken =
          (inSequence kept keyAllowed tokens mark (']' :: rest)).fetchFlowEnd
            .flowSequenceEnd := by
      simp [fetchToken, inSequence, inMapping, startsDocumentMark]
    rw [isEnd, fetchFlowEnd, dropCandidate_inSequence keptOptional]
    simp [inSequence, inMapping, inFlow, allowKey, pushNext, push, Cursor.skip, Scanner.mark,
      token]
  have isNext := next_of_fetchToken isSkipped isKept (Int.natCast_nonneg _) isFetched
  obtain ⟨after, isBehind, atMargin⟩ :=
    skipSpace_inMapping_of_endsLine ends (tokens ++ [token]) (mark.advance 1)
  refine ⟨_, step_of_next isSkipped rfl isNext isBehind ?_, _, _, ?_, atMargin, isBehind⟩
  · exact Nat.lt_succ_of_le ends.length_le
  · simp [token]

/-! ## The end of the text -/

private theorem fetchToken_end (keyAllowed : Bool) (tokens : List Token) (mark : Mark) :
    ∃ last : Mark,
      (inMapping keyAllowed tokens mark []).fetchToken =
        .ok
          { inMapping false
              (tokens ++
                [{ kind := .blockEnd, first := last, last },
                  { kind := .streamEnd, first := last, last }])
              last [] with
            indent := -1
            indents := []
            ended := true } := by
  refine ⟨if mark.column = 0 then mark else mark.newLine 0, ?_⟩
  simp [fetchToken, fetchEnd, inMapping, unroll, unrollFrom, inFlow, pushHere, push,
    dropCandidate, allowKey, Scanner.mark]
  rfl

theorem leads_end (keyAllowed : Bool) (kinds : List TokenKind) :
    Leads (InMapping keyAllowed kinds []) (AtEnd (kinds ++ [.blockEnd, .streamEnd])) := by
  refine leads_of_step ?_
  rintro scanner ⟨tokens, mark, rfl, -, isSkipped⟩
  obtain ⟨last, isFetched⟩ := fetchToken_end keyAllowed tokens mark
  have isNext := next_of_fetchToken isSkipped rfl (Int.natCast_nonneg _) isFetched
  have notEnded : scanner.ended = false := congrArg Scanner.ended isSkipped
  refine ⟨_, ⟨notEnded, isNext, .inl rfl⟩, rfl, ?_⟩
  simp [inMapping]

end Scanner

/-! ## Simple mappings -/

/-- The value of a member. -/
inductive SimpleValue where
  | word (text : List Char)
  | quoted (text : List Char)
  | sequence (items : List (List Char))

namespace SimpleValue

/-- The value as it is written. -/
def text : SimpleValue → List Char
  | word text => text
  | quoted text => Yaml.quoted text
  | sequence items => '[' :: ([',', ' '].intercalate (items.map Yaml.quoted) ++ [']'])

/-- The tokens of the value. -/
def tokens : SimpleValue → List TokenKind
  | word text => [.scalar .plain text]
  | quoted text => [.scalar .doubleQuoted text]
  | sequence items =>
      .flowSequenceStart ::
        ((items.map (.scalar .doubleQuoted)).intersperse .flowEntry ++ [.flowSequenceEnd])

/-- The value is a word, or the characters in its quotes are printable. -/
def IsPlain : SimpleValue → Prop
  | word text => IsWord text
  | quoted text => ∀ character ∈ text, IsPrintable character
  | sequence items => ∀ item ∈ items, ∀ character ∈ item, IsPrintable character

end SimpleValue

/-- A member of a simple mapping. -/
structure SimpleMember where
  key : List Char
  value : SimpleValue

namespace SimpleMember

/-- The line of a member. -/
def text (member : SimpleMember) : List Char :=
  member.key ++ ':' :: ' ' :: member.value.text

/-- The tokens of a member. -/
def tokens (member : SimpleMember) : List TokenKind :=
  [.key, .scalar .plain member.key, .value] ++ member.value.tokens

/-- The key is a word that is not too long for a key, and the value is a simple one. -/
structure IsPlain (member : SimpleMember) : Prop where
  key : IsWord member.key
  short : member.key.length ≤ 1024
  value : member.value.IsPlain

/-- Members are written line by line, and the last line may lack its line break. -/
inductive AreWritten : List SimpleMember → List Char → Prop where
  | nil : AreWritten [] []
  | last (member : SimpleMember) : AreWritten [member] member.text
  | cons (member : SimpleMember) {members : List SimpleMember} {text : List Char} :
      AreWritten members text → AreWritten (member :: members) (member.text ++ '\n' :: text)

end SimpleMember

private theorem isSolid_quoted (text rest : List Char) : IsSolid (quoted text ++ rest) :=
  isSolid_cons (by decide) _

private theorem isSolid_items (items : List (List Char)) (rest : List Char) :
    IsSolid ([',', ' '].intercalate (items.map quoted) ++ ']' :: rest) := by
  match items with
  | [] => exact isSolid_cons (by decide) rest
  | [item] =>
      rw [List.map_singleton, List.intercalate_singleton]
      exact isSolid_quoted item _
  | item :: next :: later =>
      rw [List.map_cons, List.map_cons, List.intercalate_cons_cons, List.append_assoc,
        List.append_assoc]
      exact isSolid_quoted item _

theorem SimpleValue.IsPlain.isSolid
    {value : SimpleValue} (isPlain : value.IsPlain) (rest : List Char) :
    IsSolid (value.text ++ rest) := by
  cases value with
  | word text =>
      obtain ⟨head, later, rfl⟩ := List.exists_cons_of_ne_nil isPlain.nonempty
      exact (isPlain.characters head List.mem_cons_self).isSolid _
  | quoted text => exact isSolid_quoted text rest
  | sequence items => exact isSolid_cons (by decide) _

theorem SimpleMember.IsPlain.isSolid
    {member : SimpleMember} (isPlain : member.IsPlain) (rest : List Char) :
    IsSolid (member.text ++ rest) := by
  obtain ⟨head, later, isKey⟩ := List.exists_cons_of_ne_nil isPlain.key.nonempty
  rw [SimpleMember.text, isKey]
  exact (isPlain.key.characters head (isKey ▸ List.mem_cons_self)).isSolid _

theorem SimpleMember.AreWritten.isSolid
    {members : List SimpleMember} {text : List Char} (written : AreWritten members text)
    (arePlain : ∀ member ∈ members, member.IsPlain) : IsSolid text := by
  cases written with
  | nil => exact nofun
  | last member =>
      have isSolid := (arePlain member List.mem_cons_self).isSolid []
      rwa [List.append_nil] at isSolid
  | cons member later => exact (arePlain member List.mem_cons_self).isSolid _

namespace Scanner

/-- The items of a sequence in brackets are read one by one. -/
theorem leads_items
    {items : List (List Char)} {rest more : List Char} {broken : Bool}
    (arePrintable : ∀ item ∈ items, ∀ character ∈ item, IsPrintable character)
    (ends : EndsLine rest broken more) (kinds : List TokenKind) :
    Leads
      (InSequence true kinds ([',', ' '].intercalate (items.map quoted) ++ ']' :: rest))
      (InMapping broken
        (kinds ++
          ((items.map (.scalar .doubleQuoted)).intersperse .flowEntry ++ [.flowSequenceEnd]))
        more) := by
  induction items generalizing kinds with
  | nil => exact leads_close ends true kinds
  | cons item later inductionHypothesis =>
      rw [List.forall_mem_cons] at arePrintable
      cases later with
      | nil =>
          have closing : IsSolid (']' :: rest) := isSolid_cons (by decide) rest
          have isItem := leads_item arePrintable.1 closing kinds
          simpa using isItem.trans (leads_close ends false _)
      | cons next later =>
          have dividing (rest : List Char) : IsSolid (',' :: rest) := isSolid_cons (by decide) rest
          have isComma :=
            (leads_item arePrintable.1 (dividing _) kinds).trans
              (leads_comma (isSolid_items (next :: later) rest) _)
          simpa [List.intercalate_cons_cons] using
            isComma.trans (inductionHypothesis arePrintable.2 _)

theorem leads_value
    {value : SimpleValue} {rest more : List Char} {broken : Bool} (isPlain : value.IsPlain)
    (ends : EndsLine rest broken more) (kinds : List TokenKind) :
    Leads (InMapping false kinds (value.text ++ rest))
      (InMapping broken (kinds ++ value.tokens) more) := by
  cases value with
  | word text => exact leads_word isPlain ends kinds
  | quoted text => exact leads_quoted isPlain ends kinds
  | sequence items =>
      have isOpen := leads_open (isSolid_items items rest) kinds
      simpa [SimpleValue.text, SimpleValue.tokens] using
        isOpen.trans (leads_items isPlain ends _)

/-- A line gives the tokens of its member. -/
theorem leads_member
    {member : SimpleMember} {rest more : List Char} {broken : Bool} (isPlain : member.IsPlain)
    (ends : EndsLine rest broken more) (isFirst : Bool) (kinds : List TokenKind) :
    Leads (AtKey isFirst kinds (member.text ++ rest))
      (InMapping broken
        (kinds ++ ((if isFirst then [.blockMappingStart] else []) ++ member.tokens)) more) := by
  have isKey :=
    leads_key isPlain.key isPlain.short (isPlain.value.isSolid rest) isFirst kinds
  have isMember := isKey.trans (leads_value isPlain.value ends _)
  simpa [SimpleMember.text, SimpleMember.tokens] using isMember

private theorem atKey_false (kinds : List TokenKind) (rest : List Char) :
    AtKey false kinds rest = InMapping true kinds rest := by
  funext scanner
  refine propext ⟨?_, ?_⟩
  · rintro ⟨tokens, mark, isKinds, atMargin, isSkipped⟩
    exact ⟨tokens, mark, isKinds, fun _ => atMargin, isSkipped⟩
  · rintro ⟨tokens, mark, isKinds, atMargin, isSkipped⟩
    exact ⟨tokens, mark, isKinds, atMargin rfl, isSkipped⟩

/-- The lines of a simple mapping are read one after another up to the end of the text. -/
theorem leads_members
    {members : List SimpleMember} {text : List Char}
    (written : SimpleMember.AreWritten members text)
    (arePlain : ∀ member ∈ members, member.IsPlain) (isFirst : Bool)
    (nonempty : isFirst = true → members ≠ []) (kinds : List TokenKind) :
    Leads (AtKey isFirst kinds text)
      (AtEnd
        (kinds ++
          ((if isFirst then [.blockMappingStart] else []) ++ members.flatMap (·.tokens) ++
            [.blockEnd, .streamEnd]))) := by
  -- Whatever the first member is in front of, later members are in front of a line in a mapping.
  induction written generalizing isFirst kinds with
  | nil =>
      cases isFirst with
      | true => exact absurd rfl (nonempty rfl)
      | false =>
          rw [atKey_false]
          exact leads_end true kinds
  | last member =>
      have isMember :=
        leads_member (arePlain member List.mem_cons_self) .ofText isFirst kinds
      simpa using isMember.trans (leads_end false _)
  | cons member written inductionHypothesis =>
      rw [List.forall_mem_cons] at arePlain
      have ends := EndsLine.ofBreak (written.isSolid arePlain.2)
      have isMember := leads_member arePlain.1 ends isFirst kinds
      have areLater := inductionHypothesis arePlain.2 false nofun
      simp only [atKey_false] at areLater
      simpa using isMember.trans (areLater _)

end Scanner

/-- The tokens of a text that consists of a simple mapping. -/
theorem TokenStream.ofText_simpleMapping
    {members : List SimpleMember} {text : List Char}
    (written : SimpleMember.AreWritten members text)
    (arePlain : ∀ member ∈ members, member.IsPlain) (nonempty : members ≠ []) :
    ((ofText text).tokens.map (·.kind) =
        .streamStart :: .blockMappingStart :: members.flatMap (·.tokens) ++
          [.blockEnd, .streamEnd]) ∧
      (ofText text).error = none := by
  have isSkipped : (Scanner.start text).skipSpace = .start text :=
    Scanner.skipSpace_of_isSolid (written.isSolid arePlain)
  have isFront : Scanner.AtKey true [.streamStart] text (.start text) :=
    ⟨_, .start, rfl, rfl, isSkipped⟩
  obtain ⟨last, reaches, ended, kinds⟩ :=
    Scanner.leads_members written arePlain true (fun _ => nonempty) _ _ isFront
  rw [ofText, ofScanner_of_reaches reaches ended]
  · exact ⟨kinds, rfl⟩
  · rw [isSkipped]
    exact .inr (Nat.lt_succ_self _)

end SourceCritic.Yaml
