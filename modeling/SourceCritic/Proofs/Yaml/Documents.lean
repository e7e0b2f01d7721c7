import Mathlib
import SourceCritic.Proofs.Yaml.Tokens
import SourceCritic.Yaml.Document

/-!
# The document of a simple mapping

The grammar is followed event by event through the tokens of a simple mapping.  A parser is
described by its goals and by the kinds of the tokens in front of it, and each lemma says which
events lead from where to where.
-/

namespace SourceCritic.Yaml

/-! ## Events of a parser -/

/-- A parser gives some events, and is then another one. -/
inductive Gives : Parser → List EventKind → Parser → Prop where
  | refl (parser : Parser) : Gives parser [] parser
  | head {parser between after : Parser} {event : Event} {kinds : List EventKind} :
      parser.next = .ok (event, between) → Gives between kinds after →
        Gives parser (event.kind :: kinds) after

theorem Gives.trans
    {parser between after : Parser} {kinds later : List EventKind}
    (gives : Gives parser kinds between) (goesOn : Gives between later after) :
    Gives parser (kinds ++ later) after := by
  induction gives with
  | refl => exact goesOn
  | head isNext _ inductionHypothesis => exact .head isNext (inductionHypothesis goesOn)

/-- The events of some tokens are those that are given until nothing is expected any more. -/
theorem Gives.ofParser_eq
    {parser last : Parser} {kinds : List EventKind} (gives : Gives parser kinds last)
    (noGoals : last.goals = []) {fuel : Nat} (enough : kinds.length < fuel) :
    (EventStream.ofParser fuel parser).events.map (·.kind) = kinds ∧
      (EventStream.ofParser fuel parser).error = last.error := by
  -- One more step than there are events finds that nothing is expected any more.
  induction gives generalizing fuel with
  | refl parser =>
      obtain ⟨fuel, rfl⟩ := Nat.exists_eq_succ_of_ne_zero (Nat.ne_of_gt enough)
      have isStop : parser.next = .error parser.error := by
        rw [Parser.next, noGoals]
        rfl
      simp [EventStream.ofParser, isStop]
  | head isNext gives inductionHypothesis =>
      obtain ⟨fuel, rfl⟩ := Nat.exists_eq_succ_of_ne_zero (Nat.ne_of_gt (Nat.zero_lt_of_lt enough))
      obtain ⟨areEvents, isError⟩ := inductionHypothesis noGoals (Nat.lt_of_succ_lt_succ enough)
      simp [EventStream.ofParser, isNext, areEvents, isError]

/-- Every parser of one kind gives some events, and is then of another kind. -/
def Yields (before : Parser → Prop) (kinds : List EventKind) (behind : Parser → Prop) : Prop :=
  ∀ parser, before parser → ∃ after, Gives parser kinds after ∧ behind after

theorem Yields.trans
    {first second third : Parser → Prop} {kinds later : List EventKind}
    (yields : Yields first kinds second) (goesOn : Yields second later third) :
    Yields first (kinds ++ later) third := by
  intro parser isFirst
  obtain ⟨between, gives, isSecond⟩ := yields parser isFirst
  obtain ⟨after, givesLater, isThird⟩ := goesOn between isSecond
  exact ⟨after, gives.trans givesLater, isThird⟩

private theorem yields_of_next
    {before behind : Parser → Prop} {kind : EventKind}
    (step :
      ∀ parser, before parser →
        ∃ mark after, parser.next = .ok ({ kind, mark }, after) ∧ behind after) :
    Yields before [kind] behind := by
  intro parser isBefore
  obtain ⟨mark, after, isNext, isBehind⟩ := step parser isBefore
  exact ⟨after, .head isNext (.refl after), isBehind⟩

/-- A parser with some goals in front of tokens of some kinds, behind which the text ends. -/
structure Expects (goals : List Goal) (kinds : List TokenKind) (parser : Parser) : Prop where
  goals : parser.goals = goals
  kinds : parser.tokens.map (·.kind) = kinds
  noError : parser.error = none

private theorem exists_of_kind
    {kind : TokenKind} {kinds : List TokenKind} {goals : List Goal} {parser : Parser}
    (expects : Expects goals (kind :: kinds) parser) :
    ∃ first last tokens handles,
      parser =
          { tokens := { kind, first, last } :: tokens, error := none, goals, handles } ∧
        tokens.map (·.kind) = kinds := by
  obtain ⟨rfl, isKinds, noError⟩ := expects
  obtain ⟨token, tokens, isTokens, rfl, rfl⟩ := List.map_eq_cons_iff.mp isKinds
  exact ⟨token.first, token.last, tokens, parser.handles, by rw [← isTokens, ← noError], rfl⟩

private theorem exists_of_kinds
    {kind next : TokenKind} {kinds : List TokenKind} {goals : List Goal} {parser : Parser}
    (expects : Expects goals (kind :: next :: kinds) parser) :
    ∃ began ended first last tokens handles,
      parser =
          { tokens :=
              { kind, first := began, last := ended } :: { kind := next, first, last } :: tokens
            error := none
            goals
            handles } ∧
        tokens.map (·.kind) = kinds := by
  obtain ⟨began, ended, later, handles, rfl, isKinds⟩ := exists_of_kind expects
  obtain ⟨token, tokens, rfl, rfl, rfl⟩ := List.map_eq_cons_iff.mp isKinds
  exact ⟨began, ended, token.first, token.last, tokens, handles, rfl, rfl⟩

/-! ## Events of a member -/

/-- The event of a scalar that has neither an anchor nor a tag. -/
def bare (style : ScalarStyle) (text : List Char) : EventKind :=
  .scalar none { style, tag := none, text }

/-- The events of a value. -/
def SimpleValue.events : SimpleValue → List EventKind
  | word text => [bare .plain text]
  | quoted text => [bare .doubleQuoted text]
  | sequence items => .sequenceStart none :: (items.map (bare .doubleQuoted) ++ [.sequenceEnd])

/-- The events of a member. -/
def SimpleMember.events (member : SimpleMember) : List EventKind :=
  bare .plain member.key :: member.value.events

/-- A parser in a sequence in brackets, in front of its first item or behind one. -/
def ExpectsItem (isFirst : Bool) (goals : List Goal) (kinds : List TokenKind) (parser : Parser) :
    Prop :=
  ∃ began, Expects (.flowEntry began isFirst :: goals) kinds parser

section Steps

variable (began : Mark) (goals : List Goal) (kinds : List TokenKind)

/-- A key becomes a scalar, and its value comes next. -/
theorem yields_key (style : ScalarStyle) (text : List Char) :
    Yields (Expects (.blockKey began :: goals) (.key :: .scalar style text :: kinds))
      [bare style text] (Expects (.blockValue began :: goals) kinds) := by
  refine yields_of_next fun parser expects => ?_
  obtain ⟨_, _, first, last, tokens, handles, rfl, rfl⟩ := exists_of_kinds expects
  exact ⟨first, _, rfl, rfl, rfl, rfl⟩

theorem yields_scalar (style : ScalarStyle) (text : List Char) :
    Yields (Expects (.blockValue began :: goals) (.value :: .scalar style text :: kinds))
      [bare style text] (Expects (.blockKey began :: goals) kinds) := by
  refine yields_of_next fun parser expects => ?_
  obtain ⟨_, _, first, last, tokens, handles, rfl, rfl⟩ := exists_of_kinds expects
  exact ⟨first, _, rfl, rfl, rfl, rfl⟩

theorem yields_open :
    Yields (Expects (.blockValue began :: goals) (.value :: .flowSequenceStart :: kinds))
      [.sequenceStart none] (ExpectsItem true (.blockKey began :: goals) kinds) := by
  refine yields_of_next fun parser expects => ?_
  obtain ⟨_, _, first, last, tokens, handles, rfl, rfl⟩ := exists_of_kinds expects
  exact ⟨first, _, rfl, first, rfl, rfl, rfl⟩

/-- An item is read together with the comma in front of it, which the first one lacks. -/
theorem yields_item (isFirst : Bool) (style : ScalarStyle) (text : List Char) :
    Yields
      (ExpectsItem isFirst goals
        ((if isFirst then [] else [.flowEntry]) ++ .scalar style text :: kinds))
      [bare style text] (ExpectsItem false goals kinds) := by
  refine yields_of_next fun parser ⟨began, expects⟩ => ?_
  cases isFirst with
  | true =>
      obtain ⟨first, last, tokens, handles, rfl, rfl⟩ := exists_of_kind expects
      exact ⟨first, _, rfl, began, rfl, rfl, rfl⟩
  | false =>
      obtain ⟨_, _, first, last, tokens, handles, rfl, rfl⟩ := exists_of_kinds expects
      exact ⟨first, _, rfl, began, rfl, rfl, rfl⟩

private theorem yields_close (isFirst : Bool) :
    Yields (ExpectsItem isFirst goals (.flowSequenceEnd :: kinds)) [.sequenceEnd]
      (Expects goals kinds) := by
  refine yields_of_next fun parser ⟨began, expects⟩ => ?_
  obtain ⟨first, last, tokens, handles, rfl, rfl⟩ := exists_of_kind expects
  cases isFirst <;> exact ⟨first, { tokens, error := none, goals, handles }, rfl, rfl, rfl, rfl⟩

/-- All items of a sequence become scalars, one after the other. -/
theorem yields_items {items : List (List Char)} (nonempty : items ≠ []) (isFirst : Bool) :
    Yields
      (ExpectsItem isFirst goals
        ((if isFirst then [] else [.flowEntry]) ++
          ((items.map (.scalar .doubleQuoted)).intersperse .flowEntry ++
            .flowSequenceEnd :: kinds)))
      (items.map (bare .doubleQuoted) ++ [.sequenceEnd]) (Expects goals kinds) := by
  induction items generalizing isFirst with
  | nil => exact absurd rfl nonempty
  | cons item later inductionHypothesis =>
      cases later with
      | nil =>
          exact
            (yields_item goals _ isFirst .doubleQuoted item).trans
              (yields_close goals kinds false)
      | cons next later =>
          have areLater := inductionHypothesis (List.cons_ne_nil next later) false
          simpa using (yields_item goals _ isFirst .doubleQuoted item).trans areLater

theorem yields_value (value : SimpleValue) :
    Yields (Expects (.blockValue began :: goals) (.value :: (value.tokens ++ kinds)))
      value.events (Expects (.blockKey began :: goals) kinds) := by
  cases value with
  | word text => exact yields_scalar began goals kinds .plain text
  | quoted text => exact yields_scalar began goals kinds .doubleQuoted text
  | sequence items =>
      cases items with
      | nil => exact (yields_open began goals _).trans (yields_close _ kinds true)
      | cons item items =>
          have areItems :=
            yields_items (.blockKey began :: goals) kinds (List.cons_ne_nil item items) true
          have isSequence := (yields_open began goals _).trans areItems
          simpa [SimpleValue.tokens, SimpleValue.events] using isSequence

theorem yields_member (member : SimpleMember) :
    Yields (Expects (.blockKey began :: goals) (member.tokens ++ kinds)) member.events
      (Expects (.blockKey began :: goals) kinds) :=
  (yields_key began goals _ .plain member.key).trans
    (yields_value began goals kinds member.value)

/-- The members of a mapping give their events one after the other. -/
theorem yields_members (members : List SimpleMember) :
    Yields (Expects (.blockKey began :: goals) (members.flatMap (·.tokens) ++ kinds))
      (members.flatMap (·.events)) (Expects (.blockKey began :: goals) kinds) := by
  induction members with
  | nil => exact fun parser expects => ⟨parser, .refl parser, expects⟩
  | cons member members inductionHypothesis =>
      have isMember :=
        (yields_member began goals (members.flatMap (·.tokens) ++ kinds) member).trans
          inductionHypothesis
      simpa using isMember

/-! ## The document around the members -/

private theorem yields_stream :
    Yields (Expects [.stream] (.streamStart :: kinds)) [.streamStart]
      (Expects [.document true] kinds) := by
  refine yields_of_next fun parser expects => ?_
  obtain ⟨first, last, tokens, handles, rfl, rfl⟩ := exists_of_kind expects
  exact ⟨first, _, rfl, rfl, rfl, rfl⟩

private theorem yields_document :
    Yields (Expects [.document true] (.blockMappingStart :: kinds)) [.documentStart]
      (Expects [.node true false, .documentEnd] (.blockMappingStart :: kinds)) := by
  refine yields_of_next fun parser expects => ?_
  obtain ⟨first, last, tokens, handles, rfl, rfl⟩ := exists_of_kind expects
  exact ⟨first, _, rfl, rfl, rfl, rfl⟩

private theorem yields_mapping :
    Yields (Expects [.node true false, .documentEnd] (.blockMappingStart :: kinds))
      [.mappingStart none]
      fun parser => ∃ began, Expects [.blockKey began, .documentEnd] kinds parser := by
  refine yields_of_next fun parser expects => ?_
  obtain ⟨first, last, tokens, handles, rfl, rfl⟩ := exists_of_kind expects
  exact ⟨first, _, rfl, first, rfl, rfl, rfl⟩

private theorem yields_mappingEnd :
    Yields (Expects (.blockKey began :: goals) (.blockEnd :: kinds)) [.mappingEnd]
      (Expects goals kinds) := by
  refine yields_of_next fun parser expects => ?_
  obtain ⟨first, last, tokens, handles, rfl, rfl⟩ := exists_of_kind expects
  exact ⟨first, _, rfl, rfl, rfl, rfl⟩

private theorem yields_documentEnd :
    Yields (Expects [.documentEnd] [.streamEnd]) [.documentEnd]
      (Expects [.document false] [.streamEnd]) := by
  refine yields_of_next fun parser expects => ?_
  obtain ⟨first, last, tokens, handles, rfl, isEmpty⟩ := exists_of_kind expects
  obtain rfl := List.map_eq_nil_iff.mp isEmpty
  exact ⟨first, _, rfl, rfl, rfl, rfl⟩

private theorem yields_streamEnd :
    Yields (Expects [.document false] [.streamEnd]) [.streamEnd] (Expects [] []) := by
  refine yields_of_next fun parser expects => ?_
  obtain ⟨first, last, tokens, handles, rfl, isEmpty⟩ := exists_of_kind expects
  obtain rfl := List.map_eq_nil_iff.mp isEmpty
  exact ⟨first, _, rfl, rfl, rfl, rfl⟩

end Steps

private theorem SimpleValue.length_events_le (value : SimpleValue) :
    value.events.length ≤ value.tokens.length := by
  cases value with
  | word text => exact Nat.le_refl _
  | quoted text => exact Nat.le_refl _
  | sequence items =>
      simp [events, tokens]
      omega

private theorem SimpleMember.length_events_le (member : SimpleMember) :
    member.events.length ≤ member.tokens.length := by
  have ofValue := member.value.length_events_le
  simp only [events, tokens, List.length_cons, List.length_append, List.length_nil]
  omega

private theorem length_events_le (members : List SimpleMember) :
    (members.flatMap (·.events)).length ≤ (members.flatMap (·.tokens)).length := by
  induction members with
  | nil => exact Nat.le_refl _
  | cons member members inductionHypothesis =>
      rw [List.flatMap_cons, List.flatMap_cons, List.length_append, List.length_append]
      exact Nat.add_le_add member.length_events_le inductionHypothesis

/-- The events of a text that consists of a simple mapping. -/
theorem EventStream.ofTokens_simpleMapping
    {members : List SimpleMember} {stream : TokenStream}
    (areTokens :
      stream.tokens.map (·.kind) =
        .streamStart :: .blockMappingStart :: members.flatMap (·.tokens) ++
          [.blockEnd, .streamEnd])
    (noError : stream.error = none) :
    ((ofTokens stream).events.map (·.kind) =
        .streamStart :: .documentStart :: .mappingStart none :: members.flatMap (·.events) ++
          [.mappingEnd, .documentEnd, .streamEnd]) ∧
      (ofTokens stream).error = none := by
  have begins : Expects [.stream] _ (.start stream) := ⟨rfl, areTokens, noError⟩
  have isOpening :=
    ((yields_stream _).trans (yields_document _)).trans
      (yields_mapping (members.flatMap (·.tokens) ++ [.blockEnd, .streamEnd]))
  obtain ⟨_, opens, began, isOpen⟩ := isOpening _ begins
  have isMapping :=
    (yields_members began [.documentEnd] [.blockEnd, .streamEnd] members).trans
      (yields_mappingEnd began [.documentEnd] [.streamEnd])
  have isClosing := (isMapping.trans yields_documentEnd).trans yields_streamEnd
  obtain ⟨last, closes, ends⟩ := isClosing _ isOpen
  have tokenCount := congrArg List.length areTokens
  have eventCount := length_events_le members
  have gives := opens.trans closes
  rw [ofTokens, ← ends.noError]
  simpa using gives.ofParser_eq ends.goals (by
    simp at tokenCount eventCount ⊢
    omega)

/-! ## Documents -/

/-- What an event adds to a document that names nothing. -/
def EventKind.content? : EventKind → Option Content
  | .scalar none read => some (.scalar read)
  | .sequenceStart none => some .sequenceStart
  | .sequenceEnd => some .sequenceEnd
  | .mappingStart none => some .mappingStart
  | .mappingEnd => some .mappingEnd
  | _ => none

/-- A scalar that has no tag. -/
def Content.bare (style : ScalarStyle) (text : List Char) : Content :=
  .scalar { style, tag := none, text }

/-- What a document says with a value. -/
def SimpleValue.contents : SimpleValue → List Content
  | word text => [.bare .plain text]
  | quoted text => [.bare .doubleQuoted text]
  | sequence items => .sequenceStart :: (items.map (.bare .doubleQuoted) ++ [.sequenceEnd])

/-- What a document says with a member. -/
def SimpleMember.contents (member : SimpleMember) : List Content :=
  .bare .plain member.key :: member.value.contents

theorem SimpleValue.contents_events (value : SimpleValue) :
    value.events.map EventKind.content? = value.contents.map some := by
  cases value with
  | word text => rfl
  | quoted text => rfl
  | sequence items =>
      simp [events, contents, EventKind.content?, Yaml.bare, Content.bare]

/-- The events of members tell the contents of the members. -/
theorem contents_events (members : List SimpleMember) :
    (members.flatMap (·.events)).map EventKind.content? =
      (members.flatMap (·.contents)).map some := by
  simp only [List.map_flatMap, SimpleMember.events, SimpleMember.contents, List.map_cons,
    SimpleValue.contents_events]
  rfl

namespace Document

/-- An event that names nothing adds one entry. -/
theorem ofEvents_cons
    {event : Event} {content : Content} (isContent : event.kind.content? = some content)
    (error : Option SyntaxError) (reading : Reading) (events : List Event) :
    ofEvents error reading (event :: events) =
      ofEvents error (reading.push content event.mark) events := by
  obtain ⟨kind, mark⟩ := event
  rw [ofEvents]
  match kind, isContent with
  | .scalar none read, rfl => rfl
  | .sequenceStart none, rfl => rfl
  | .sequenceEnd, rfl => rfl
  | .mappingStart none, rfl => rfl
  | .mappingEnd, rfl => rfl

/-- Events that name nothing add one entry each. -/
theorem ofEvents_append
    {events : List Event} {contents : List Content}
    (areContents : events.map (·.kind.content?) = contents.map some)
    (error : Option SyntaxError) (reading : Reading) (later : List Event) :
    ∃ entries : List Entry,
      entries.map (·.content) = contents ∧
        ofEvents error reading (events ++ later) =
          ofEvents error { reading with entries := entries.reverse ++ reading.entries } later := by
  induction events generalizing contents reading with
  | nil =>
      obtain rfl : contents = [] := by
        simpa using areContents.symm
      exact ⟨[], rfl, rfl⟩
  | cons event events inductionHypothesis =>
      obtain ⟨content, contents, rfl, isContent, areLater⟩ :=
        List.map_eq_cons_iff.mp areContents.symm
      obtain ⟨entries, isEntries, isRead⟩ :=
        inductionHypothesis areLater.symm (reading.push content event.mark)
      refine ⟨{ content, mark := event.mark } :: entries, by simp [isEntries], ?_⟩
      rw [List.cons_append, ofEvents_cons isContent.symm, isRead]
      simp [Reading.push]

/-- The events of one document, of which none names anything. -/
theorem ofEvents_document
    {events : List Event} {kinds : List EventKind} {contents : List Content}
    (areKinds :
      events.map (·.kind) = .streamStart :: .documentStart :: kinds ++ [.documentEnd, .streamEnd])
    (areContents : kinds.map EventKind.content? = contents.map some) :
    ∃ entries : List Entry,
      entries.map (·.content) = contents ∧
        ofEvents none .start events =
          { entries, anchors := [], failure := none, isLast := true } := by
  obtain ⟨⟨_, _⟩, inStream, rfl, rfl, behindStream⟩ := List.map_eq_cons_iff.mp areKinds
  obtain ⟨⟨_, _⟩, inDocument, rfl, rfl, behindDocument⟩ := List.map_eq_cons_iff.mp behindStream
  obtain ⟨events, later, rfl, rfl, areEnds⟩ := List.map_eq_append_iff.mp behindDocument
  obtain ⟨⟨_, _⟩, ends, rfl, rfl, areLast⟩ := List.map_eq_cons_iff.mp areEnds
  obtain ⟨⟨_, _⟩, last, rfl, rfl, isNil⟩ := List.map_eq_cons_iff.mp areLast
  rw [List.map_map] at areContents
  obtain ⟨entries, isEntries, isRead⟩ := ofEvents_append areContents none .start _
  refine ⟨entries, isEntries, ?_⟩
  rw [ofEvents, ofEvents, isRead]
  simp [ofEvents, Reading.finish, Reading.start, endsText]

end Document

/-! ## The characters of a simple mapping -/

theorem IsWord.areSimple {text : List Char} (isWord : IsWord text) :
    ∀ character ∈ text, IsSimple character :=
  fun character member => .inl (isWord.characters character member).isPrintable

private theorem areSimple_quoted
    {text : List Char} (arePrintable : ∀ character ∈ text, IsPrintable character) :
    ∀ character ∈ quoted text, IsSimple character := by
  have quote : IsSimple '"' := .inl (by decide)
  have backslash : IsSimple '\\' := .inl (by decide)
  intro character member
  rcases List.mem_cons.mp member with rfl | member
  · exact quote
  rcases List.mem_append.mp member with member | member
  · obtain ⟨read, isRead, isEscaped⟩ := List.mem_flatMap.mp member
    have isSimple : IsSimple read := .inl (arePrintable read isRead)
    rw [escaped] at isEscaped
    split at isEscaped
    · rcases List.mem_pair.mp isEscaped with rfl | rfl
      · exact backslash
      · exact isSimple
    · exact List.mem_singleton.mp isEscaped ▸ isSimple
  · exact List.mem_singleton.mp member ▸ quote

private theorem areSimple_items
    {items : List (List Char)}
    (arePrintable : ∀ item ∈ items, ∀ character ∈ item, IsPrintable character) :
    ∀ character ∈ [',', ' '].intercalate (items.map quoted), IsSimple character := by
  have comma : IsSimple ',' := .inl (by decide)
  have space : IsSimple ' ' := .inl (by decide)
  induction items with
  | nil => exact nofun
  | cons item later inductionHypothesis =>
      rw [List.forall_mem_cons] at arePrintable
      have areItem := areSimple_quoted arePrintable.1
      cases later with
      | nil =>
          rw [List.map_singleton, List.intercalate_singleton]
          exact areItem
      | cons next later =>
          have areLater := inductionHypothesis arePrintable.2
          rw [List.map_cons] at areLater
          rw [List.map_cons, List.map_cons, List.intercalate_cons_cons, List.forall_mem_append,
            List.forall_mem_append, List.forall_mem_cons, List.forall_mem_singleton]
          exact ⟨⟨areItem, comma, space⟩, areLater⟩

theorem SimpleValue.IsPlain.areSimple {value : SimpleValue} (isPlain : value.IsPlain) :
    ∀ character ∈ value.text, IsSimple character := by
  have opening : IsSimple '[' := .inl (by decide)
  have closing : IsSimple ']' := .inl (by decide)
  cases value with
  | word text => exact IsWord.areSimple isPlain
  | quoted text => exact areSimple_quoted isPlain
  | sequence items =>
      rw [text, List.forall_mem_cons, List.forall_mem_append, List.forall_mem_singleton]
      exact ⟨opening, areSimple_items isPlain, closing⟩

theorem SimpleMember.IsPlain.areSimple {member : SimpleMember} (isPlain : member.IsPlain) :
    ∀ character ∈ member.text, IsSimple character := by
  have colon : IsSimple ':' := .inl (by decide)
  have space : IsSimple ' ' := .inl (by decide)
  simp only [text, List.forall_mem_append, List.forall_mem_cons]
  exact ⟨isPlain.key.areSimple, colon, space, isPlain.value.areSimple⟩

theorem SimpleMember.AreWritten.areSimple
    {members : List SimpleMember} {text : List Char} (written : AreWritten members text)
    (arePlain : ∀ member ∈ members, member.IsPlain) :
    ∀ character ∈ text, IsSimple character := by
  induction written with
  | nil => exact nofun
  | last member => exact (arePlain member List.mem_cons_self).areSimple
  | cons member written inductionHypothesis =>
      rw [List.forall_mem_cons] at arePlain
      rw [List.forall_mem_append, List.forall_mem_cons]
      exact ⟨arePlain.1.areSimple, .inr rfl, inductionHypothesis arePlain.2⟩

/-! ## The whole text -/

/-- The document in a text that consists of a simple mapping. -/
theorem Document.ofBytes_simpleMapping
    {members : List SimpleMember} {text : List Char}
    (written : SimpleMember.AreWritten members text)
    (arePlain : ∀ member ∈ members, member.IsPlain) (nonempty : members ≠ []) :
    ∃ entries : List Entry,
      entries.map (·.content) =
          .mappingStart :: members.flatMap (·.contents) ++ [.mappingEnd] ∧
        ofBytes (Text.bytes text) =
          { entries, anchors := [], failure := none, isLast := true } := by
  obtain ⟨areTokens, noTokenError⟩ :=
    TokenStream.ofText_simpleMapping written arePlain nonempty
  obtain ⟨areEvents, noEventError⟩ :=
    EventStream.ofTokens_simpleMapping areTokens noTokenError
  have isStream : EventStream.ofBytes (Text.bytes text) = .ofTokens (.ofText text) := by
    rw [EventStream.ofBytes, decode_bytes (written.areSimple arePlain)]
  rw [ofBytes, isStream, noEventError]
  have areKinds :
      (EventStream.ofTokens (.ofText text)).events.map (·.kind) =
        .streamStart :: .documentStart ::
          (.mappingStart none :: members.flatMap (·.events) ++ [.mappingEnd]) ++
            [.documentEnd, .streamEnd] := by
    simpa using areEvents
  refine ofEvents_document areKinds ?_
  rw [List.map_append, List.map_cons, contents_events]
  simp [EventKind.content?]

end SourceCritic.Yaml
