import SourceCritic.Yaml.Event.Basic
import SourceCritic.Yaml.Token.Stream

/-!
# The events of a YAML text

The grammar of YAML over tokens.  What is still expected is kept as a stack of goals; the topmost
goal looks at the next tokens, gives one event, and leaves other goals in its place.
-/

namespace SourceCritic.Yaml

/-- What is expected.  Goals within a collection know where the collection began, and `first`
tells whether nothing of it has been read. -/
inductive Goal where
  | stream
  | document (implicit : Bool)
  | documentContent
  | documentEnd
  | node (inBlock plainEntries : Bool)
  | blockEntry (began : Mark)
  | plainEntry
  | blockKey (began : Mark)
  | blockValue (began : Mark)
  | flowEntry (began : Mark) (first : Bool)
  | pairKey (began : Mark)
  | pairValue (began : Mark)
  | pairEnd (began : Mark)
  | flowKey (began : Mark) (first : Bool)
  | flowValue (began : Mark)
  | flowNoValue (began : Mark)
  deriving DecidableEq, Repr

/-- The grammar between two events: the tokens that are left and the error behind them, the goals,
and the tag handles of the document. -/
structure Parser where
  tokens : List Token
  error : Option SyntaxError
  goals : List Goal
  handles : List (List Char × List Char)

/-- What a goal leads to: an event, unless the text has ended before or is wrong. -/
abbrev Step := Except (Option SyntaxError) (Event × Parser)

namespace Parser

/-- The tag handles that every document has. -/
def defaultHandles : List (List Char × List Char) :=
  [("!".toList, "!".toList), ("!!".toList, "tag:yaml.org,2002:".toList)]

def start (stream : TokenStream) : Parser where
  tokens := stream.tokens
  error := stream.error
  goals := [.stream]
  handles := []

/-- The parser with the tokens behind some that have been read, and with other goals. -/
def goOn (parser : Parser) (tokens : List Token) (goals : List Goal) : Parser :=
  { parser with tokens := tokens, goals := goals }

def give (parser : Parser) (kind : EventKind) (mark : Mark) : Step :=
  .ok ({ kind := kind, mark := mark }, parser)

def giveEmpty (parser : Parser) (mark : Mark) : Step :=
  .ok (.emptyScalar mark, parser)

def stop (parser : Parser) : Step :=
  .error parser.error

def fail (problem : Problem) (mark : Mark) : Step :=
  .error (some (.grammar problem mark none))

def failIn (activity : Activity) (began : Mark) (problem : Problem) (mark : Mark) : Step :=
  .error (some (.during activity began problem mark))

/-! ## Nodes -/

/-- What may stand in front of the content of a node. -/
structure Properties where
  first : Mark
  anchor : Option (List Char)
  tag : Option (List Char × List Char × Mark)

/-- Reads the anchor and the tag of a node in either order. -/
def readProperties (began : Mark) : List Token → Properties × List Token
  | { kind := .anchor name, first, .. } :: { kind := .tag handle suffix, first := tagged, .. } ::
      rest =>
      ({ first := first, anchor := some name, tag := some (handle, suffix, tagged) }, rest)
  | { kind := .anchor name, first, .. } :: rest =>
      ({ first := first, anchor := some name, tag := none }, rest)
  | { kind := .tag handle suffix, first, .. } :: { kind := .anchor name, .. } :: rest =>
      ({ first := first, anchor := some name, tag := some (handle, suffix, first) }, rest)
  | { kind := .tag handle suffix, first, .. } :: rest =>
      ({ first := first, anchor := none, tag := some (handle, suffix, first) }, rest)
  | tokens => ({ first := began, anchor := none, tag := none }, tokens)

/-- The whole of a tag, its handle expanded. -/
def expandTag (parser : Parser) (properties : Properties) :
    Except (Option SyntaxError) (Option (List Char)) :=
  match properties.tag with
  | none => .ok none
  | some ([], suffix, _) => .ok (some suffix)
  | some (handle, suffix, mark) =>
      match parser.handles.lookup handle with
      | some expansion => .ok (some (expansion ++ suffix))
      | none => .error (some (.during .node properties.first .unknownTagHandle mark))

/-- The event of a scalar.  The tag `!` alone does not matter. -/
def scalarKind (properties : Properties) (tag : Option (List Char)) (style : ScalarStyle)
    (text : List Char) : EventKind :=
  let tag := if tag = some ['!'] then none else tag
  .scalar properties.anchor { style := style, tag := tag, text := text }

def readContent (parser : Parser) (inBlock plainEntries : Bool) (goals : List Goal)
    (properties : Properties) (tag : Option (List Char)) : List Token → Step
  | [] => parser.stop
  | token :: rest =>
      let mark := properties.first
      let anchor := properties.anchor
      let openSequence (goal : Goal) : Step :=
        (parser.goOn rest (goal :: goals)).give (.sequenceStart anchor) mark
      let openMapping (goal : Goal) : Step :=
        (parser.goOn rest (goal :: goals)).give (.mappingStart anchor) mark
      let noContent : Step :=
        if anchor.isSome || tag.isSome then
          (parser.goOn (token :: rest) goals).give (scalarKind properties tag .plain []) mark
        else
          let activity : Activity := if inBlock then .blockNode else .flowNode
          failIn activity mark .noContent token.first
      match token.kind with
      | .blockEntry =>
          if plainEntries then
            (parser.goOn (token :: rest) (.plainEntry :: goals)).give (.sequenceStart anchor) mark
          else
            noContent
      | .scalar style text =>
          (parser.goOn rest goals).give (scalarKind properties tag style text) mark
      | .flowSequenceStart => openSequence (.flowEntry token.first true)
      | .flowMappingStart => openMapping (.flowKey token.first true)
      | .blockSequenceStart =>
          if inBlock then openSequence (.blockEntry token.first) else noContent
      | .blockMappingStart => if inBlock then openMapping (.blockKey token.first) else noContent
      | _ => noContent

/-- Reads a node.  `plainEntries` tells whether it may be a sequence that is not indented. -/
def readNode (parser : Parser) (inBlock plainEntries : Bool) (goals : List Goal) :
    List Token → Step
  | [] => parser.stop
  | { kind := .alias name, first, .. } :: rest =>
      (parser.goOn rest goals).give (.alias name) first
  | token :: rest =>
      let read := readProperties token.first (token :: rest)
      match read.2 with
      | [] => parser.stop
      | _ =>
          match parser.expandTag read.1 with
          | .error error => .error error
          | .ok tag => parser.readContent inBlock plainEntries goals read.1 tag read.2

/-! ## Documents -/

/-- Reads the directives in front of a document. -/
def readDirectives (version : Bool) (handles : List (List Char × List Char)) :
    List Token → Except SyntaxError (List (List Char × List Char) × List Token)
  | { kind := .version major minor, first, .. } :: rest =>
      if version then
        .error (.grammar .secondVersion first none)
      else if major ≠ 1 ∨ (minor ≠ 1 ∧ minor ≠ 2) then
        .error (.grammar .wrongVersion first none)
      else
        readDirectives true handles rest
  | { kind := .tagHandle handle expansion, first, .. } :: rest =>
      if (handles.lookup handle).isSome then
        .error (.grammar .secondTagHandle first none)
      else
        readDirectives version (handles ++ [(handle, expansion)]) rest
  | tokens => .ok (handles ++ defaultHandles, tokens)

def dropDocumentEnds : List Token → List Token
  | { kind := .documentEnd, .. } :: rest => dropDocumentEnds rest
  | tokens => tokens

/-- Begins a document, or ends the text. -/
def readDocument (parser : Parser) (implicit : Bool) (goals : List Goal) (tokens : List Token) :
    Step :=
  match if implicit then tokens else dropDocumentEnds tokens with
  | [] => parser.stop
  | token :: rest =>
      let explicit : Bool :=
        !implicit ||
          match token.kind with
          | .version _ _ => true
          | .tagHandle _ _ => true
          | .documentStart => true
          | _ => false
      if token.kind = .streamEnd then
        (parser.goOn rest []).give .streamEnd token.first
      else if explicit then
        match readDirectives false [] (token :: rest) with
        | .error error => .error (some error)
        | .ok (handles, tokens) =>
            match tokens with
            | [] => parser.stop
            | { kind := .documentStart, .. } :: rest =>
                ({ parser with handles := handles }.goOn rest
                  (.documentContent :: .documentEnd :: goals)).give .documentStart token.first
            | other :: _ => fail .noDocumentStart other.first
      else
        ({ parser with handles := defaultHandles }.goOn (token :: rest)
          (.node true false :: .documentEnd :: goals)).give .documentStart token.first

def readDocumentContent (parser : Parser) (goals : List Goal) : List Token → Step
  | [] => parser.stop
  | token :: rest =>
      let nothing : Step := (parser.goOn (token :: rest) goals).giveEmpty token.first
      match token.kind with
      | .version _ _ => nothing
      | .tagHandle _ _ => nothing
      | .documentStart => nothing
      | .documentEnd => nothing
      | .streamEnd => nothing
      | _ => parser.readNode true false goals (token :: rest)

/-! ## Collections -/

def isOneOf (token : Token) (kinds : List TokenKind) : Bool :=
  kinds.contains token.kind

/-- Reads a node, unless one of some tokens stands there instead. -/
def readNodeUnless (parser : Parser) (kinds : List TokenKind) (inBlock plainEntries : Bool)
    (goals : List Goal) (nothing : Token → Mark) : List Token → Step
  | [] => parser.stop
  | token :: rest =>
      if isOneOf token kinds then
        (parser.goOn (token :: rest) goals).giveEmpty (nothing token)
      else
        parser.readNode inBlock plainEntries goals (token :: rest)

def readBlockEntry (parser : Parser) (began : Mark) (goals : List Goal) : List Token → Step
  | [] => parser.stop
  | token :: rest =>
      match token.kind with
      | .blockEntry =>
          parser.readNodeUnless [.blockEntry, .blockEnd] true false (.blockEntry began :: goals)
            (fun _ => token.last) rest
      | .blockEnd => (parser.goOn rest goals).give .sequenceEnd token.first
      | _ => failIn .blockSequence began .noDash token.first

/-- Reads the next item of a sequence that is not indented, or its end. -/
def readPlainEntry (parser : Parser) (goals : List Goal) : List Token → Step
  | [] => parser.stop
  | token :: rest =>
      match token.kind with
      | .blockEntry =>
          parser.readNodeUnless [.blockEntry, .key, .value, .blockEnd] true false
            (.plainEntry :: goals) (fun _ => token.last) rest
      | _ => (parser.goOn (token :: rest) goals).give .sequenceEnd token.first

def readBlockKey (parser : Parser) (began : Mark) (goals : List Goal) : List Token → Step
  | [] => parser.stop
  | token :: rest =>
      match token.kind with
      | .key =>
          parser.readNodeUnless [.key, .value, .blockEnd] true true (.blockValue began :: goals)
            (fun _ => token.last) rest
      | .blockEnd => (parser.goOn rest goals).give .mappingEnd token.first
      | _ => failIn .blockMapping began .noKey token.first

def readBlockValue (parser : Parser) (began : Mark) (goals : List Goal) : List Token → Step
  | [] => parser.stop
  | token :: rest =>
      match token.kind with
      | .value =>
          parser.readNodeUnless [.key, .value, .blockEnd] true true (.blockKey began :: goals)
            (fun _ => token.last) rest
      | _ => (parser.goOn (token :: rest) (.blockKey began :: goals)).giveEmpty token.first

/-- Passes over the comma in front of all parts of a flow collection but the first. -/
def readComma (parser : Parser) (first : Bool) (ending : TokenKind) (activity : Activity)
    (problem : Problem) (began : Mark) :
    List Token → Except (Option SyntaxError) (List Token)
  | [] => .error parser.error
  | token :: rest =>
      if first || token.kind = ending then
        .ok (token :: rest)
      else if token.kind = .flowEntry then
        .ok rest
      else
        .error (some (.during activity began problem token.first))

/-- Reads the next item of a flow sequence, or its end.  A key makes an item a mapping with one
member. -/
def readFlowEntry (parser : Parser) (began : Mark) (first : Bool) (goals : List Goal)
    (tokens : List Token) : Step :=
  match parser.readComma first .flowSequenceEnd .flowSequence .noSequenceEnd began tokens with
  | .error error => .error error
  | .ok [] => parser.stop
  | .ok (token :: rest) =>
      match token.kind with
      | .flowSequenceEnd => (parser.goOn rest goals).give .sequenceEnd token.first
      | .key => (parser.goOn rest (.pairKey began :: goals)).give (.mappingStart none) token.first
      | _ => parser.readNode false false (.flowEntry began false :: goals) (token :: rest)

/-- Reads the key of a mapping with one member.  Where nothing is written, the token behind it is
passed over. -/
def readPairKey (parser : Parser) (began : Mark) (goals : List Goal) : List Token → Step
  | [] => parser.stop
  | token :: rest =>
      if isOneOf token [.value, .flowEntry, .flowSequenceEnd] then
        (parser.goOn rest (.pairValue began :: goals)).giveEmpty token.last
      else
        parser.readNode false false (.pairValue began :: goals) (token :: rest)

def readPairValue (parser : Parser) (began : Mark) (goals : List Goal) : List Token → Step
  | [] => parser.stop
  | token :: rest =>
      if token.kind = .value then
        parser.readNodeUnless [.flowEntry, .flowSequenceEnd] false false (.pairEnd began :: goals)
          (·.first) rest
      else
        (parser.goOn (token :: rest) (.pairEnd began :: goals)).giveEmpty token.first

/-- Ends a mapping with one member. -/
def readPairEnd (parser : Parser) (began : Mark) (goals : List Goal) : List Token → Step
  | [] => parser.stop
  | token :: rest =>
      (parser.goOn (token :: rest) (.flowEntry began false :: goals)).give .mappingEnd token.first

def readFlowKey (parser : Parser) (began : Mark) (first : Bool) (goals : List Goal)
    (tokens : List Token) : Step :=
  match parser.readComma first .flowMappingEnd .flowMapping .noMappingEnd began tokens with
  | .error error => .error error
  | .ok [] => parser.stop
  | .ok (token :: rest) =>
      match token.kind with
      | .flowMappingEnd => (parser.goOn rest goals).give .mappingEnd token.first
      | .key =>
          parser.readNodeUnless [.value, .flowEntry, .flowMappingEnd] false false
            (.flowValue began :: goals) (·.first) rest
      | _ => parser.readNode false false (.flowNoValue began :: goals) (token :: rest)

def readFlowValue (parser : Parser) (began : Mark) (goals : List Goal) : List Token → Step
  | [] => parser.stop
  | token :: rest =>
      let goals := .flowKey began false :: goals
      if token.kind = .value then
        parser.readNodeUnless [.flowEntry, .flowMappingEnd] false false goals (·.first) rest
      else
        (parser.goOn (token :: rest) goals).giveEmpty token.first

def readNoValue (parser : Parser) (began : Mark) (goals : List Goal) : List Token → Step
  | [] => parser.stop
  | token :: rest =>
      (parser.goOn (token :: rest) (.flowKey began false :: goals)).giveEmpty token.first

/-! ## All goals -/

def readDocumentEnd (parser : Parser) (goals : List Goal) : List Token → Step
  | [] => parser.stop
  | token :: rest =>
      let left := if token.kind = .documentEnd then rest else token :: rest
      (parser.goOn left (.document false :: goals)).give .documentEnd token.first

def readStream (parser : Parser) (goals : List Goal) : List Token → Step
  | [] => parser.stop
  | token :: rest =>
      (parser.goOn rest (.document true :: goals)).give .streamStart token.first

def next (parser : Parser) : Step :=
  match parser.goals with
  | [] => parser.stop
  | goal :: goals =>
      let tokens := parser.tokens
      match goal with
      | .stream => parser.readStream goals tokens
      | .document implicit => parser.readDocument implicit goals tokens
      | .documentContent => parser.readDocumentContent goals tokens
      | .documentEnd => parser.readDocumentEnd goals tokens
      | .node inBlock plainEntries => parser.readNode inBlock plainEntries goals tokens
      | .blockEntry began => parser.readBlockEntry began goals tokens
      | .plainEntry => parser.readPlainEntry goals tokens
      | .blockKey began => parser.readBlockKey began goals tokens
      | .blockValue began => parser.readBlockValue began goals tokens
      | .flowEntry began first => parser.readFlowEntry began first goals tokens
      | .pairKey began => parser.readPairKey began goals tokens
      | .pairValue began => parser.readPairValue began goals tokens
      | .pairEnd began => parser.readPairEnd began goals tokens
      | .flowKey began first => parser.readFlowKey began first goals tokens
      | .flowValue began => parser.readFlowValue began goals tokens
      | .flowNoValue began => parser.readNoValue began goals tokens

end Parser

/-- The events of a text, and the error behind them if it is wrong. -/
structure EventStream where
  events : List Event
  error : Option SyntaxError

namespace EventStream

/-- Reads at most `fuel` events. -/
def ofParser : (fuel : Nat) → Parser → EventStream
  | 0, parser => { events := [], error := parser.error }
  | fuel + 1, parser =>
      match parser.next with
      | .error error => { events := [], error := error }
      | .ok (event, parser) =>
          let later := ofParser fuel parser
          { later with events := event :: later.events }

/-- The events of some tokens.  No token leads to more than eight of them. -/
def ofTokens (stream : TokenStream) : EventStream :=
  ofParser (8 * (stream.tokens.length + 1)) (.start stream)

def ofBytes (bytes : List UInt8) : EventStream :=
  match decode bytes with
  | .error error => { events := [], error := some error }
  | .ok text => ofTokens (.ofText text)

end EventStream

end SourceCritic.Yaml
