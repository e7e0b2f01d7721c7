import SourceCritic.Yaml.Token.Block
import SourceCritic.Yaml.Token.Plain
import SourceCritic.Yaml.Token.Property
import SourceCritic.Yaml.Token.Quoted

/-!
# The tokens of a YAML text

Whether a scalar is a key is known only when the colon behind it is met.  So the place of a token
that may begin a key is remembered, and the tokens that announce the key are put in front of it
later.  A key without an announcement must fit on one line and must not be longer than 1024
characters.

Tokens are handed on as soon as nothing can be put in front of them any more.  If the text turns
out to be wrong, the tokens that have not been handed on are lost.
-/

namespace SourceCritic.Yaml

/-- A token that may begin a key: its number, its mark, and whether it has to be a key. -/
structure KeyCandidate where
  number : Nat
  mark : Mark
  required : Bool
  deriving DecidableEq, Repr

/-- A text that is being divided into tokens.  `indent` is the column of the innermost block
collection and `indents` are those of the collections around it; `candidates` holds the candidate
of every flow collection that is open, the innermost one first, and that of the text around
them. -/
structure Scanner where
  cursor : Cursor
  tokens : Array Token
  indent : Int
  indents : List Int
  keyAllowed : Bool
  candidates : List (Option KeyCandidate)
  ended : Bool

namespace Scanner

def start (text : List Char) : Scanner where
  cursor := { rest := text, mark := .start }
  tokens := #[{ kind := .streamStart, first := .start, last := .start }]
  indent := -1
  indents := []
  keyAllowed := true
  candidates := [none]
  ended := false

def inFlow (scanner : Scanner) : Bool :=
  scanner.candidates.length > 1

def mark (scanner : Scanner) : Mark :=
  scanner.cursor.mark

def push (scanner : Scanner) (token : Token) : Scanner :=
  { scanner with tokens := scanner.tokens.push token }

def pushHere (scanner : Scanner) (kind : TokenKind) : Scanner :=
  scanner.push { kind := kind, first := scanner.mark, last := scanner.mark }

/-- Adds a token of some characters at the cursor, and moves the cursor behind it. -/
def pushNext (scanner : Scanner) (kind : TokenKind) (count : Nat) : Scanner :=
  let after := scanner.cursor.skip count
  { scanner.push { kind := kind, first := scanner.mark, last := after.mark } with cursor := after }

/-- Puts a token in front of the token with a number. -/
def insert (scanner : Scanner) (number : Nat) (token : Token) : Scanner :=
  { scanner with
    tokens :=
      (scanner.tokens.extract 0 number).push token ++
        scanner.tokens.extract number scanner.tokens.size }

def allowKey (scanner : Scanner) (allowed : Bool) : Scanner :=
  { scanner with keyAllowed := allowed }

/-! ## Keys -/

/-- The error about a candidate that had to be a key and is none. -/
def keyError (scanner : Scanner) (candidate : KeyCandidate) : SyntaxError :=
  .during .simpleKey candidate.mark .noColon scanner.mark

/-- Whether a candidate is too far behind to be a key. -/
def isStale (scanner : Scanner) (candidate : KeyCandidate) : Bool :=
  candidate.mark.line < scanner.mark.line || candidate.mark.index + 1024 < scanner.mark.index

def dropStale (scanner : Scanner) : Except SyntaxError Scanner :=
  let stale := scanner.candidates.reverse.filterMap fun candidate =>
    candidate.filter scanner.isStale
  match stale.find? (·.required) with
  | some candidate => .error (scanner.keyError candidate)
  | none =>
      .ok { scanner with
        candidates := scanner.candidates.map fun candidate =>
          candidate.filter fun tested => !scanner.isStale tested }

def dropCandidate (scanner : Scanner) : Except SyntaxError Scanner :=
  match scanner.candidates with
  | some candidate :: outer =>
      if candidate.required then
        .error (scanner.keyError candidate)
      else
        .ok { scanner with candidates := none :: outer }
  | _ => .ok scanner

/-- Remembers the next token as a candidate, if a key may begin here. -/
def saveCandidate (scanner : Scanner) : Except SyntaxError Scanner :=
  if scanner.keyAllowed then
    let candidate : KeyCandidate :=
      { number := scanner.tokens.size
        mark := scanner.mark
        required := !scanner.inFlow && scanner.indent = scanner.mark.column }
    match scanner.dropCandidate with
    | .error error => .error error
    | .ok scanner =>
        .ok { scanner with candidates := some candidate :: scanner.candidates.tail }
  else
    .ok scanner

/-! ## Indentation -/

/-- Ends the block collections that are indented deeper than a column.  `outer` are the columns
of the collections around the innermost one. -/
def unrollFrom (column : Int) (scanner : Scanner) : (outer : List Int) → Scanner
  | [] => { scanner with indents := [] }
  | next :: outer =>
      if scanner.indent > column then
        unrollFrom column { scanner.pushHere .blockEnd with indent := next } outer
      else
        { scanner with indents := next :: outer }

/-- Ends the block collections that are indented deeper than a column, outside of flow
collections. -/
def unroll (scanner : Scanner) (column : Int) : Scanner :=
  if scanner.inFlow then scanner else scanner.unrollFrom column scanner.indents

/-- Begins a block collection at a column, if it is deeper than the innermost one.  Its token is
put in front of the token with the given number, or else at the end. -/
def roll (scanner : Scanner) (mark : Mark) (number : Option Nat) (kind : TokenKind) : Scanner :=
  if !scanner.inFlow && decide (scanner.indent < mark.column) then
    let token : Token := { kind := kind, first := mark, last := mark }
    let deeper :=
      { scanner with indents := scanner.indent :: scanner.indents, indent := mark.column }
    match number with
    | none => deeper.push token
    | some number => deeper.insert number token
  else
    scanner

/-! ## White space -/

/-- Moves over white space and comments.  Outside of flow collections a new line allows a key
again. -/
def skipFrom (inFlow : Bool) : (comment keyAllowed : Bool) → Mark → List Char → Bool × Cursor
  | _, keyAllowed, mark, [] => (keyAllowed, { rest := [], mark := mark })
  | comment, keyAllowed, mark, head :: rest =>
      if isBreak head then
        match head, rest with
        | '\r', '\n' :: later =>
            skipFrom inFlow false (keyAllowed || !inFlow) (mark.newLine 2) later
        | _, later => skipFrom inFlow false (keyAllowed || !inFlow) (mark.newLine 1) later
      else if comment || head = ' ' || (head = '\t' && (inFlow || !keyAllowed)) ||
          (head = '\uFEFF' && mark.index = 0) then
        skipFrom inFlow comment keyAllowed (mark.advance 1) rest
      else if head = '#' then
        skipFrom inFlow true keyAllowed (mark.advance 1) rest
      else
        (keyAllowed, { rest := head :: rest, mark := mark })

def skipSpace (scanner : Scanner) : Scanner :=
  let moved := skipFrom scanner.inFlow false scanner.keyAllowed scanner.mark scanner.cursor.rest
  { scanner with keyAllowed := moved.1, cursor := moved.2 }

/-! ## Tokens -/

/-- Ends the text.  A last line without a line break counts as if it had one. -/
def fetchEnd (scanner : Scanner) : Except SyntaxError Scanner :=
  let mark := if scanner.mark.column = 0 then scanner.mark else scanner.mark.newLine 0
  let moved := { scanner with cursor := { scanner.cursor with mark := mark } }
  match (moved.unroll (-1)).dropCandidate with
  | .error error => .error error
  | .ok scanner => .ok { (scanner.allowKey false).pushHere .streamEnd with ended := true }

def fetchDirective (scanner : Scanner) : Except SyntaxError Scanner :=
  match (scanner.unroll (-1)).dropCandidate with
  | .error error => .error error
  | .ok scanner =>
      match Property.scanDirective scanner.cursor with
      | .error error => .error error
      | .ok (token, after) => .ok { (scanner.allowKey false).push token with cursor := after }

def fetchDocumentMark (scanner : Scanner) (kind : TokenKind) : Except SyntaxError Scanner :=
  match (scanner.unroll (-1)).dropCandidate with
  | .error error => .error error
  | .ok scanner => .ok ((scanner.allowKey false).pushNext kind 3)

def fetchFlowStart (scanner : Scanner) (kind : TokenKind) : Except SyntaxError Scanner :=
  match scanner.saveCandidate with
  | .error error => .error error
  | .ok scanner =>
      let deeper := { scanner with candidates := none :: scanner.candidates }
      .ok ((deeper.allowKey true).pushNext kind 1)

def fetchFlowEnd (scanner : Scanner) (kind : TokenKind) : Except SyntaxError Scanner :=
  match scanner.dropCandidate with
  | .error error => .error error
  | .ok scanner =>
      let outer :=
        if scanner.inFlow then
          { scanner with candidates := scanner.candidates.tail }
        else
          scanner
      .ok ((outer.allowKey false).pushNext kind 1)

def fetchFlowEntry (scanner : Scanner) : Except SyntaxError Scanner :=
  match scanner.dropCandidate with
  | .error error => .error error
  | .ok scanner => .ok ((scanner.allowKey true).pushNext .flowEntry 1)

/-- Reads the beginning of an item or of an announced key, which begins a block collection if
none is open at its column. -/
def fetchEntry (scanner : Scanner) (kind collection : TokenKind) (problem : Problem)
    (allowed : Bool) : Except SyntaxError Scanner :=
  if !scanner.inFlow && !scanner.keyAllowed then
    .error (.grammar problem scanner.mark none)
  else
    match (scanner.roll scanner.mark none collection).dropCandidate with
    | .error error => .error error
    | .ok scanner => .ok ((scanner.allowKey allowed).pushNext kind 1)

/-- Reads the colon in front of a value.  If there is a candidate, it is a key. -/
def fetchValue (scanner : Scanner) : Except SyntaxError Scanner :=
  match scanner.candidates with
  | some candidate :: outer =>
      let token : Token := { kind := .key, first := candidate.mark, last := candidate.mark }
      let announced := { scanner with candidates := none :: outer }.insert candidate.number token
      let rolled := announced.roll candidate.mark (some candidate.number) .blockMappingStart
      .ok ((rolled.allowKey false).pushNext .value 1)
  | _ =>
      if !scanner.inFlow && !scanner.keyAllowed then
        .error (.grammar .misplacedValue scanner.mark none)
      else
        let rolled := scanner.roll scanner.mark none .blockMappingStart
        .ok ((rolled.allowKey !scanner.inFlow).pushNext .value 1)

def fetchCandidate (scanner : Scanner)
    (scan : Cursor → Except SyntaxError (Token × Cursor)) : Except SyntaxError Scanner :=
  match scanner.saveCandidate with
  | .error error => .error error
  | .ok scanner =>
      match scan scanner.cursor with
      | .error error => .error error
      | .ok (token, after) => .ok { (scanner.allowKey false).push token with cursor := after }

def fetchBlock (scanner : Scanner) (folded : Bool) : Except SyntaxError Scanner :=
  match scanner.dropCandidate with
  | .error error => .error error
  | .ok scanner =>
      match Block.scan folded scanner.indent scanner.cursor with
      | .error error => .error error
      | .ok (token, after) => .ok { (scanner.allowKey true).push token with cursor := after }

/-- Reads a plain scalar.  If a line is broken behind it, a key may begin there. -/
def fetchPlain (scanner : Scanner) : Except SyntaxError Scanner :=
  match scanner.saveCandidate with
  | .error error => .error error
  | .ok scanner =>
      match Plain.scan scanner.inFlow (scanner.indent + 1) scanner.cursor with
      | .error error => .error error
      | .ok result =>
          let token : Token :=
            { kind := .scalar .plain result.text, first := scanner.mark, last := result.last }
          .ok { (scanner.allowKey result.broken).push token with cursor := result.after }

/-- Whether a plain scalar may begin with a character in front of some others. -/
def startsPlain (inFlow : Bool) (head : Char) (rest : List Char) : Bool :=
  if head = '-' then
    !rest.head?.any isBlank
  else if head = '?' || head = ':' then
    !inFlow && !startsBlank rest
  else
    !isBlank head && !isBreak head &&
      !(",[]\x7b\x7d#&*!|>'\"%@`".toList.contains head)

def fetchToken (scanner : Scanner) : Except SyntaxError Scanner :=
  match scanner.cursor.rest with
  | [] => scanner.fetchEnd
  | head :: rest =>
      if scanner.mark.column = 0 && head = '%' then
        scanner.fetchDirective
      else if startsDocumentMark scanner.mark.column (head :: rest) then
        scanner.fetchDocumentMark (if head = '-' then .documentStart else .documentEnd)
      else if head = '[' then
        scanner.fetchFlowStart .flowSequenceStart
      else if head = '{' then
        scanner.fetchFlowStart .flowMappingStart
      else if head = ']' then
        scanner.fetchFlowEnd .flowSequenceEnd
      else if head = '}' then
        scanner.fetchFlowEnd .flowMappingEnd
      else if head = ',' then
        scanner.fetchFlowEntry
      else if head = '-' && startsBlank rest then
        scanner.fetchEntry .blockEntry .blockSequenceStart .misplacedEntry true
      else if head = '?' && (scanner.inFlow || startsBlank rest) then
        scanner.fetchEntry .key .blockMappingStart .misplacedKey !scanner.inFlow
      else if head = ':' && (scanner.inFlow || startsBlank rest) then
        scanner.fetchValue
      else if head = '*' then
        scanner.fetchCandidate (Property.scanAnchor true)
      else if head = '&' then
        scanner.fetchCandidate (Property.scanAnchor false)
      else if head = '!' then
        scanner.fetchCandidate (Property.scanTag scanner.inFlow)
      else if head = '|' && !scanner.inFlow then
        scanner.fetchBlock false
      else if head = '>' && !scanner.inFlow then
        scanner.fetchBlock true
      else if head = '\'' then
        scanner.fetchCandidate (Quoted.scan true)
      else if head = '"' then
        scanner.fetchCandidate (Quoted.scan false)
      else if startsPlain scanner.inFlow head rest then
        scanner.fetchPlain
      else
        .error (.during .nextToken scanner.mark .noToken scanner.mark)

/-- Reads the next token behind the cursor, and gives up candidates that are too far behind. -/
def next (scanner : Scanner) : Except SyntaxError Scanner :=
  match scanner.skipSpace.dropStale with
  | .error error => .error error
  | .ok scanner =>
      match (scanner.unroll scanner.mark.column).fetchToken with
      | .error error => .error error
      | .ok scanner => scanner.dropStale

/-- The number of tokens that nothing can be put in front of. -/
def settled (scanner : Scanner) : Nat :=
  (scanner.candidates.filterMap id).foldl (fun least candidate => min least candidate.number)
    scanner.tokens.size

end Scanner

/-- The tokens of a text, and the error behind them if it is wrong. -/
structure TokenStream where
  tokens : List Token
  error : Option SyntaxError

namespace TokenStream

/-- Reads tokens until the text ends or is wrong, at most `fuel` times. -/
def ofScanner : (fuel : Nat) → Scanner → TokenStream
  | 0, scanner => { tokens := scanner.tokens.toList, error := none }
  | fuel + 1, scanner =>
      if scanner.ended then
        { tokens := scanner.tokens.toList, error := none }
      else
        match scanner.next with
        | .error error =>
            { tokens := scanner.tokens.toList.take scanner.settled, error := some error }
        | .ok scanner => ofScanner fuel scanner

/-- The tokens of a text.  Every one that is read takes at least one character, except for the
end. -/
def ofText (text : List Char) : TokenStream :=
  ofScanner (text.length + 1) (.start text)

end TokenStream

end SourceCritic.Yaml
