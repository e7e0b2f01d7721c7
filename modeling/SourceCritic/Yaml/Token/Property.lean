import SourceCritic.Yaml.Token.Basic

/-!
# Anchors, tags and directives

The tokens that are read name by name: anchors and aliases, tags, and the directives in front of
a document.
-/

namespace SourceCritic.Yaml.Property

/-- Whether a character may follow the name of an anchor. -/
def endsAnchor (rest : List Char) : Bool :=
  startsBlank rest || rest.head?.any fun next => "?:,]\x7d%@`".toList.contains next

def scanAnchor (isAlias : Bool) (cursor : Cursor) : Except SyntaxError (Token × Cursor) :=
  let read := (cursor.skip 1).takeWhile isNameCharacter
  if read.1.isEmpty || !endsAnchor read.2.rest then
    let activity : Activity := if isAlias then .alias else .anchor
    .error (.during activity cursor.mark .noAnchorName read.2.mark)
  else
    let kind : TokenKind := if isAlias then .alias read.1 else .anchor read.1
    .ok ({ kind := kind, first := cursor.mark, last := read.2.mark }, read.2)

/-- Where a tag is written, which decides how errors are told. -/
structure Place where
  inDirective : Bool
  began : Mark

namespace Place

def activity (place : Place) : Activity :=
  if place.inDirective then .tagDirectiveParts else .tagParts

end Place

/-- Reads a tag handle. -/
def scanHandle (place : Place) (cursor : Cursor) : Except SyntaxError (List Char × Cursor) :=
  if cursor.rest.head? = some '!' then
    let name := (cursor.skip 1).takeWhile isNameCharacter
    if name.2.rest.head? = some '!' then
      .ok ('!' :: (name.1 ++ ['!']), name.2.skip 1)
    else if place.inDirective && !name.1.isEmpty then
      .error (.during .tagDirectiveHandle place.began .noExclamation name.2.mark)
    else
      .ok ('!' :: name.1, name.2)
  else
    let activity : Activity := if place.inDirective then .tagDirectiveScan else .tag
    .error (.during activity place.began .noExclamation cursor.mark)

/-- Whether a character may be part of the text of a tag.  Commas and brackets may only be where
they cannot belong to a flow collection. -/
def isTagCharacter (anywhere : Bool) (tested : Char) : Bool :=
  isNameCharacter tested ||
    [';', '/', '?', ':', '@', '&', '=', '+', '$', '.', '%', '!', '~', '*', '\'', '(', ')'].contains
      tested ||
    (anywhere && [',', '[', ']'].contains tested)

/-- The number of bytes of the character that a byte begins. -/
def byteWidth? (octet : Nat) : Option Nat :=
  if octet < 0x80 then
    some 1
  else if octet / 0x20 = 0x06 then
    some 2
  else if octet / 0x10 = 0x0E then
    some 3
  else if octet / 0x08 = 0x1E then
    some 4
  else
    none

/-- Reads the text of a tag, in which bytes may be escaped.  `left` is the number of escaped bytes
that still belong to the character before; the text so far is reversed. -/
def scanTextFrom (place : Place) (anywhere : Bool) :
    (left : Nat) → (text : List Char) → Mark → List Char →
    Except SyntaxError (List Char × Cursor)
  | left, text, mark, '%' :: high :: low :: rest =>
      match hexValue? high, hexValue? low with
      | some upper, some lower =>
          let octet := 16 * upper + lower
          if left = 0 then
            match byteWidth? octet with
            | none => .error (.during place.activity place.began .badEscapeStart mark)
            | some width =>
                scanTextFrom place anywhere (width - 1) (Char.ofNat octet :: text)
                  (mark.advance 3) rest
          else if octet / 0x40 = 0x02 then
            scanTextFrom place anywhere (left - 1) (Char.ofNat octet :: text)
              (mark.advance 3) rest
          else
            .error (.during place.activity place.began .badEscapeTail mark)
      | _, _ => .error (.during place.activity place.began .noEscapedByte mark)
  | left, text, mark, head :: rest =>
      if left > 0 || head = '%' then
        .error (.during place.activity place.began .noEscapedByte mark)
      else if isTagCharacter anywhere head then
        scanTextFrom place anywhere 0 (head :: text) (mark.advance 1) rest
      else
        .ok (text.reverse, { rest := head :: rest, mark := mark })
  | left, text, mark, [] =>
      if left > 0 then
        .error (.during place.activity place.began .noEscapedByte mark)
      else
        .ok (text.reverse, { rest := [], mark := mark })

/-- Reads the text of a tag behind a part of it that has been read already. -/
def scanText (place : Place) (anywhere : Bool) (given : List Char) (cursor : Cursor) :
    Except SyntaxError (List Char × Cursor) :=
  match scanTextFrom place anywhere 0 given.reverse cursor.mark cursor.rest with
  | .error error => .error error
  | .ok (text, after) =>
      if text.isEmpty then
        .error (.during place.activity place.began .noTagText after.mark)
      else
        .ok (text, after)

/-- Reads the parts of a tag: a handle and what stands behind it. -/
def scanTagParts (place : Place) (cursor : Cursor) :
    Except SyntaxError ((List Char × List Char) × Cursor) :=
  if (cursor.rest.drop 1).head? = some '<' then
    match scanText place true [] (cursor.skip 2) with
    | .error error => .error error
    | .ok (text, after) =>
        if after.rest.head? = some '>' then
          .ok (([], text), after.skip 1)
        else
          .error (.during .tag place.began .noTagEnd after.mark)
  else
    match scanHandle place cursor with
    | .error error => .error error
    | .ok (handle, after) =>
        if handle.length > 1 && handle.getLast? = some '!' then
          match scanText place false [] after with
          | .error error => .error error
          | .ok (text, after) => .ok ((handle, text), after)
        else
          let given := handle.drop 1
          match scanTextFrom place false 0 given.reverse after.mark after.rest with
          | .error error => .error error
          | .ok (text, after) =>
              if text.isEmpty then
                .ok (([], ['!']), after)
              else
                .ok ((['!'], text), after)

def scanTag (inFlow : Bool) (cursor : Cursor) : Except SyntaxError (Token × Cursor) :=
  match scanTagParts { inDirective := false, began := cursor.mark } cursor with
  | .error error => .error error
  | .ok ((handle, suffix), after) =>
      if startsBlank after.rest || (inFlow && after.rest.head? = some ',') then
        .ok ({ kind := .tag handle suffix, first := cursor.mark, last := after.mark }, after)
      else
        .error (.during .tag cursor.mark .noSpace after.mark)

def scanNumber (began : Mark) (cursor : Cursor) : Except SyntaxError (Nat × Cursor) :=
  let read := cursor.takeWhile Char.isDigit
  if read.1.isEmpty then
    .error (.during .versionDirective began .noVersionNumber cursor.mark)
  else if read.1.length > 9 then
    .error (.during .versionDirective began .longVersionNumber (cursor.mark.advance 9))
  else
    .ok (read.1.foldl (fun value digit => 10 * value + (digit.toNat - '0'.toNat)) 0, read.2)

def scanVersion (began : Mark) (cursor : Cursor) : Except SyntaxError (TokenKind × Cursor) :=
  match scanNumber began (cursor.dropWhile isBlank) with
  | .error error => .error error
  | .ok (major, after) =>
      if after.rest.head? = some '.' then
        match scanNumber began (after.skip 1) with
        | .error error => .error error
        | .ok (minor, after) => .ok (.version major minor, after)
      else
        .error (.during .versionDirective began .noVersionDot after.mark)

def scanTagDirective (began : Mark) (cursor : Cursor) :
    Except SyntaxError (TokenKind × Cursor) :=
  let place : Place := { inDirective := true, began := began }
  match scanHandle place (cursor.dropWhile isBlank) with
  | .error error => .error error
  | .ok (handle, after) =>
      if after.rest.head?.any isBlank then
        match scanText place true [] (after.dropWhile isBlank) with
        | .error error => .error error
        | .ok (expansion, after) =>
            if startsBlank after.rest then
              .ok (.tagHandle handle expansion, after)
            else
              .error (.during .tagDirective began .noSpace after.mark)
      else
        .error (.during .tagDirective began .noDirectiveSpace after.mark)

def scanDirectiveValue (began : Mark) (name : List Char) (cursor : Cursor) :
    Except SyntaxError (TokenKind × Cursor) :=
  if name = "YAML".toList then
    scanVersion began cursor
  else if name = "TAG".toList then
    scanTagDirective began cursor
  else
    .error (.during .directive began .unknownDirective cursor.mark)

/-- Reads a directive at its first character, up to the end of its line. -/
def scanDirective (cursor : Cursor) : Except SyntaxError (Token × Cursor) :=
  let began := cursor.mark
  let name := (cursor.skip 1).takeWhile isNameCharacter
  if name.1.isEmpty then
    .error (.during .directive began .noDirectiveName name.2.mark)
  else if !startsBlank name.2.rest then
    .error (.during .directive began .badDirectiveName name.2.mark)
  else
    match scanDirectiveValue began name.1 name.2 with
    | .error error => .error error
    | .ok (kind, after) =>
        let token : Token := { kind := kind, first := began, last := after.mark }
        let atEnd := (after.dropWhile isBlank).skipComment
        if startsBreak atEnd.rest then
          .ok (token, atEnd.skipBreak)
        else
          .error (.during .directive began .noLineEnd atEnd.mark)

end SourceCritic.Yaml.Property
