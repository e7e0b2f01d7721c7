/-!
# What can be wrong with a YAML text

A syntax error names the problem and its mark and, if known, what was going on and where that
began.  Lines and columns are counted from zero and printed from one.  The very beginning of a
text is never printed as a place.
-/

namespace SourceCritic.Yaml

/-- A position in a YAML text. -/
structure Mark where
  index : Nat
  line : Nat
  column : Nat
  deriving DecidableEq, Repr

namespace Mark

def start : Mark where
  index := 0
  line := 0
  column := 0

/-- The mark some characters further on the same line. -/
def advance (mark : Mark) (count : Nat) : Mark where
  index := mark.index + count
  line := mark.line
  column := mark.column + count

/-- The mark at the beginning of the next line, behind a line break of some characters. -/
def newLine (mark : Mark) (count : Nat) : Mark where
  index := mark.index + count
  line := mark.line + 1
  column := 0

/-- Whether a mark is printed: only the beginning of a text is not. -/
def isShown (mark : Mark) : Bool :=
  mark.line != 0 || mark.column != 0

def display (mark : Mark) : String :=
  let line := mark.line + 1
  let column := mark.column + 1
  s!"line {line} column {column}"

def suffix (mark : Mark) : String :=
  if mark.isShown then " at " ++ mark.display else ""

end Mark

inductive Encoding where
  | leadingByte
  | incomplete
  | trailingByte
  | length
  | codePoint
  | controlCharacter
  deriving DecidableEq, Repr

def Encoding.message : Encoding → String
  | .leadingByte => "invalid leading UTF-8 octet"
  | .incomplete => "incomplete UTF-8 octet sequence"
  | .trailingByte => "invalid trailing UTF-8 octet"
  | .length => "invalid length of a UTF-8 sequence"
  | .codePoint => "invalid Unicode character"
  | .controlCharacter => "control characters are not allowed"

inductive Problem where
  | noToken
  | noColon
  | misplacedEntry
  | misplacedKey
  | misplacedValue
  | unknownDirective
  | noDirectiveName
  | badDirectiveName
  | noLineEnd
  | noVersionNumber
  | noVersionDot
  | longVersionNumber
  | noDirectiveSpace
  | noSpace
  | noAnchorName
  | noExclamation
  | noTagEnd
  | noTagText
  | noEscapedByte
  | badEscapeStart
  | badEscapeTail
  | zeroIndent
  | tabInIndent
  | documentMark
  | endOfText
  | unknownEscape
  | noHexDigit
  | badCodePoint
  | misplacedColon
  | tabBeforeIndent
  | noDocumentStart
  | noContent
  | noDash
  | noKey
  | noSequenceEnd
  | noMappingEnd
  | unknownTagHandle
  | secondVersion
  | wrongVersion
  | secondTagHandle
  deriving DecidableEq, Repr

def Problem.message : Problem → String
  | .noToken => "found character that cannot start any token"
  | .noColon => "could not find expected ':'"
  | .misplacedEntry => "block sequence entries are not allowed in this context"
  | .misplacedKey => "mapping keys are not allowed in this context"
  | .misplacedValue => "mapping values are not allowed in this context"
  | .unknownDirective => "found unknown directive name"
  | .noDirectiveName => "could not find expected directive name"
  | .badDirectiveName => "found unexpected non-alphabetical character"
  | .noLineEnd => "did not find expected comment or line break"
  | .noVersionNumber => "did not find expected version number"
  | .noVersionDot => "did not find expected digit or '.' character"
  | .longVersionNumber => "found extremely long version number"
  | .noDirectiveSpace => "did not find expected whitespace"
  | .noSpace => "did not find expected whitespace or line break"
  | .noAnchorName => "did not find expected alphabetic or numeric character"
  | .noExclamation => "did not find expected '!'"
  | .noTagEnd => "did not find the expected '>'"
  | .noTagText => "did not find expected tag URI"
  | .noEscapedByte => "did not find URI escaped octet"
  | .badEscapeStart => "found an incorrect leading UTF-8 octet"
  | .badEscapeTail => "found an incorrect trailing UTF-8 octet"
  | .zeroIndent => "found an indentation indicator equal to 0"
  | .tabInIndent => "found a tab character where an indentation space is expected"
  | .documentMark => "found unexpected document indicator"
  | .endOfText => "found unexpected end of stream"
  | .unknownEscape => "found unknown escape character"
  | .noHexDigit => "did not find expected hexdecimal number"
  | .badCodePoint => "found invalid Unicode character escape code"
  | .misplacedColon => "found unexpected ':'"
  | .tabBeforeIndent => "found a tab character that violates indentation"
  | .noDocumentStart => "did not find expected <document start>"
  | .noContent => "did not find expected node content"
  | .noDash => "did not find expected '-' indicator"
  | .noKey => "did not find expected key"
  | .noSequenceEnd => "did not find expected ',' or ']'"
  | .noMappingEnd => "did not find expected ',' or '\x7d'"
  | .unknownTagHandle => "found undefined tag handle"
  | .secondVersion => "found duplicate %YAML directive"
  | .wrongVersion => "found incompatible YAML document"
  | .secondTagHandle => "found duplicate %TAG directive"

inductive Activity where
  | nextToken
  | simpleKey
  | directive
  | versionDirective
  | tagDirective
  | tagDirectiveHandle
  | tagDirectiveScan
  | tagDirectiveParts
  | anchor
  | alias
  | tag
  | tagParts
  | blockScalar
  | quotedScalar
  | quotedEscape
  | plainScalar
  | node
  | blockNode
  | flowNode
  | blockSequence
  | blockMapping
  | flowSequence
  | flowMapping
  deriving DecidableEq, Repr

def Activity.message : Activity → String
  | .nextToken => "while scanning for the next token"
  | .simpleKey => "while scanning a simple key"
  | .directive => "while scanning a directive"
  | .versionDirective => "while scanning a %YAML directive"
  | .tagDirective => "while scanning a %TAG directive"
  | .tagDirectiveHandle => "while parsing a tag directive"
  | .tagDirectiveScan => "while scanning a tag directive"
  | .tagDirectiveParts => "while parsing a %TAG directive"
  | .anchor => "while scanning an anchor"
  | .alias => "while scanning an alias"
  | .tag => "while scanning a tag"
  | .tagParts => "while parsing a tag"
  | .blockScalar => "while scanning a block scalar"
  | .quotedScalar => "while scanning a quoted scalar"
  | .quotedEscape => "while parsing a quoted scalar"
  | .plainScalar => "while scanning a plain scalar"
  | .node => "while parsing a node"
  | .blockNode => "while parsing a block node"
  | .flowNode => "while parsing a flow node"
  | .blockSequence => "while parsing a block collection"
  | .blockMapping => "while parsing a block mapping"
  | .flowSequence => "while parsing a flow sequence"
  | .flowMapping => "while parsing a flow mapping"

inductive SyntaxError where
  | encoding (problem : Encoding) (offset : Nat)
  | grammar (problem : Problem) (mark : Mark) (context : Option (Activity × Mark))
  deriving DecidableEq, Repr

namespace SyntaxError

/-- An error that was met during an activity which began at another mark. -/
def during (activity : Activity) (began : Mark) (problem : Problem) (mark : Mark) : SyntaxError :=
  .grammar problem mark (some (activity, began))

def message : SyntaxError → String
  | .encoding problem offset =>
      if offset = 0 then problem.message else problem.message ++ s!" at position {offset}"
  | .grammar problem mark none => problem.message ++ mark.suffix
  | .grammar problem mark (some (activity, began)) =>
      let place :=
        if began.line = mark.line ∧ began.column = mark.column then "" else began.suffix
      problem.message ++ mark.suffix ++ ", " ++ activity.message ++ place

end SyntaxError

end SourceCritic.Yaml
