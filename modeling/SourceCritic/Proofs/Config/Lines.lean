import Mathlib
import SourceCritic.Config.Load
import SourceCritic.Proofs.Yaml.Documents
import SourceCritic.Proofs.Yaml.Numbers

/-!
# Settings that are written line by line

Settings may be written one on a line: the names of directories as a sequence of quoted texts in
brackets, the largest size of a file in decimal digits, and other keys with a quoted text.  Such a
text is read as what has been written, whatever the order of the lines, and it is refused if one of
the known keys is given twice.
-/

namespace SourceCritic.Config

open Yaml (Content Document Entry IsPrintable IsWord SimpleMember SimpleValue)

/-! ## Lines -/

/-- A line of a text that holds settings. -/
inductive Line where
  | exclude (names : List String)
  | maxFileSize (size : Nat)
  | other (key value : String)
  deriving DecidableEq, Repr

/-- A text of printable ASCII characters. -/
def IsPrintableText (text : String) : Prop :=
  ∀ character ∈ text.toList, IsPrintable character

/-- A key that stands for no setting: a word of at most 128 lower-case letters. -/
structure IsUnknownKey (key : String) : Prop where
  nonempty : key ≠ ""
  letters : ∀ letter ∈ key.toList, 'a' ≤ letter ∧ letter ≤ 'z'
  short : key.length ≤ 128
  unknown : key ≠ "exclude"

namespace Line

/-- The key in front of the colon. -/
def key : Line → String
  | exclude _ => "exclude"
  | maxFileSize _ => "max_file_size"
  | other key _ => key

/-- The value behind the colon: quoted names in brackets, decimal digits or a quoted text. -/
def value : Line → SimpleValue
  | exclude names => .sequence (names.map String.toList)
  | maxFileSize size => .word (Nat.toDigits 10 size)
  | other _ value => .quoted value.toList

/-- The line as a member of a mapping. -/
def member (line : Line) : SimpleMember where
  key := line.key.toList
  value := line.value

/-- The names and values of a line are printable, its size fits a word of 64 bits, and its key is a
known one or one that stands for no setting. -/
def IsProper : Line → Prop
  | exclude names => ∀ name ∈ names, IsPrintableText name
  | maxFileSize size => size < 2 ^ 64
  | other key value => IsUnknownKey key ∧ IsPrintableText value

/-- The names that a line gives. -/
def names? : Line → Option (List String)
  | exclude names => some names
  | _ => none

/-- The size that a line gives. -/
def size? : Line → Option Nat
  | maxFileSize size => some size
  | _ => none

end Line

theorem IsUnknownKey.isWord {key : String} (isUnknown : IsUnknownKey key) :
    IsWord key.toList where
  nonempty := by
    simpa using isUnknown.nonempty
  characters letter member := .inl (isUnknown.letters letter member)

private theorem IsUnknownKey.ne_maxFileSize {key : String} (isUnknown : IsUnknownKey key) :
    key ≠ "max_file_size" := by
  rintro rfl
  have isLetter := isUnknown.letters '_' (by simp)
  exact absurd isLetter (by decide)

private theorem isWord_key {line : Line} (isProper : line.IsProper) : IsWord line.key.toList := by
  cases line with
  | exclude names => exact ⟨by simp [Line.key], by simp [Line.key]; decide⟩
  | maxFileSize size => exact ⟨by simp [Line.key], by simp [Line.key]; decide⟩
  | other key value => exact isProper.1.isWord

private theorem length_key_le {line : Line} (isProper : line.IsProper) :
    line.key.toList.length ≤ 1024 := by
  cases line with
  | exclude names => simp [Line.key]
  | maxFileSize size => simp [Line.key]
  | other key value => exact isProper.1.short.trans (by decide)

theorem Line.IsProper.isPlain {line : Line} (isProper : line.IsProper) : line.member.IsPlain := by
  refine ⟨isWord_key isProper, length_key_le isProper, ?_⟩
  cases line with
  | exclude names => exact List.forall_mem_map.mpr isProper
  | maxFileSize size => exact Yaml.isWord_toDigits size
  | other key value => exact isProper.2

/-! ## Values -/

variable (document : Document)

private theorem scalarText?_bare
    (path expected : String) (style : Yaml.ScalarStyle) (text : List Char) (mark : Yaml.Mark) :
    scalarText? document path expected { content := .bare style text, mark } =
      .ok (String.ofList text) :=
  rfl

private theorem keyPath_bare (style : Yaml.ScalarStyle) (text : List Char) (mark : Yaml.Mark) :
    keyPath { content := .bare style text, mark } = String.ofList text :=
  rfl

/-- The items of a sequence are read up to its end. -/
theorem readItems_eq_ok
    {items : List (List Char)} {contents : List Content} {entries : List Entry}
    (areItems :
      entries.map (·.content) =
        items.map (.bare .doubleQuoted) ++ .sequenceEnd :: contents)
    (path : String) (count : Nat) :
    ∃ behind,
      readItems document path count entries = .ok (items.map String.ofList, behind) ∧
        behind.map (·.content) = contents := by
  induction items generalizing entries count with
  | nil =>
      obtain ⟨⟨content, mark⟩, behind, rfl, rfl, isBehind⟩ := List.map_eq_cons_iff.mp areItems
      exact ⟨behind, rfl, isBehind⟩
  | cons item later inductionHypothesis =>
      obtain ⟨⟨content, mark⟩, entries, rfl, rfl, areLater⟩ := List.map_eq_cons_iff.mp areItems
      obtain ⟨behind, isRead, isBehind⟩ := inductionHypothesis areLater (count + 1)
      refine ⟨behind, ?_, isBehind⟩
      rw [readItems]
      simp only [scalarText?_bare, isRead]
      rfl

private theorem readExclude_eq_ok
    {items : List (List Char)} {contents : List Content} {entries : List Entry}
    (isSequence :
      entries.map (·.content) = (SimpleValue.sequence items).contents ++ contents)
    (path : String) :
    ∃ behind,
      readExclude document path entries = .ok (items.map String.ofList, behind) ∧
        behind.map (·.content) = contents := by
  obtain ⟨⟨content, mark⟩, entries, rfl, rfl, areItems⟩ := List.map_eq_cons_iff.mp isSequence
  refine readItems_eq_ok document ?_ path 0
  simpa using areItems

/-- The digits of a size that fits a word of 64 bits are read as that size. -/
theorem readSize_eq_ok
    {size : Nat} (small : size < 2 ^ 64) {contents : List Content} {entries : List Entry}
    (isNumber :
      entries.map (·.content) =
        (SimpleValue.word (Nat.toDigits 10 size)).contents ++ contents)
    (path : String) (outer : Yaml.Mark) :
    ∃ behind,
      readSize document path outer entries = .ok (some size, behind) ∧
        behind.map (·.content) = contents := by
  obtain ⟨⟨content, mark⟩, behind, rfl, rfl, isBehind⟩ := List.map_eq_cons_iff.mp isNumber
  refine ⟨behind, ?_, isBehind⟩
  have isNumber : Yaml.unsigned? (Nat.pow 2 64) (Nat.toDigits 10 size) = some size :=
    Yaml.unsigned?_toDigits small
  have isSize :
      size? path outer { content := .bare .plain (Nat.toDigits 10 size), mark } =
        .ok (some size) := by
    simp [size?, Content.bare, isNumber, Yaml.isNull_toDigits, Nat.toDigits_ne_nil]
  rw [readSize, isSize]
  · rfl
  · intro _ _ same
    cases same

/-- A quoted text is passed over. -/
private theorem skipNode_quoted
    {text : List Char} {contents : List Content} {entries : List Entry}
    (isQuoted :
      entries.map (·.content) = (SimpleValue.quoted text).contents ++ contents) :
    ∃ behind,
      Document.skipNode 0 entries = some behind ∧ behind.map (·.content) = contents := by
  obtain ⟨⟨content, mark⟩, behind, rfl, rfl, isBehind⟩ := List.map_eq_cons_iff.mp isQuoted
  exact ⟨behind, rfl, isBehind⟩

/-! ## Settings -/

/-- The settings behind a line, which may not give a known key for the second time.  `outer` is
where all the lines begin. -/
def Fields.add (outer : Yaml.Mark) (fields : Fields) : Line → Except Yaml.Failure Fields
  | .exclude names =>
      if fields.exclude.isSome then
        .error (.unfit "" (.duplicate "exclude") outer)
      else
        .ok { fields with exclude := some names }
  | .maxFileSize size =>
      if fields.maxFileSize.isSome then
        .error (.unfit "" (.duplicate "max_file_size") outer)
      else
        .ok { fields with maxFileSize := some (some size) }
  | .other _ _ => .ok fields

/-- Reading the value of a line adds the line to the settings. -/
theorem readField_line
    {line : Line} (isProper : line.IsProper) {contents : List Content} {entries : List Entry}
    (isValue : entries.map (·.content) = line.value.contents ++ contents)
    (outer : Yaml.Mark) (path : String) (fields : Fields) :
    ∃ behind,
      readField document outer path line.key fields entries =
          (fields.add outer line).map (·, behind) ∧
        behind.map (·.content) = contents := by
  cases line with
  | exclude names =>
      obtain ⟨behind, isRead, isBehind⟩ := readExclude_eq_ok document isValue path
      refine ⟨behind, ?_, isBehind⟩
      rw [readField, Line.key, if_pos rfl, Fields.add, isRead]
      split
      · rfl
      · simp [Except.map]
  | maxFileSize size =>
      obtain ⟨behind, isRead, isBehind⟩ := readSize_eq_ok document isProper isValue path outer
      refine ⟨behind, ?_, isBehind⟩
      rw [readField, Line.key, if_neg (by decide), if_pos rfl, Fields.add, isRead]
      split <;> rfl
  | other key value =>
      obtain ⟨behind, isSkipped, isBehind⟩ := skipNode_quoted isValue
      refine ⟨behind, ?_, isBehind⟩
      rw [readField, Line.key, if_neg isProper.1.unknown, if_neg isProper.1.ne_maxFileSize,
        isSkipped]
      rfl

/-- Lines are read one after another. -/
theorem readFields_lines
    {lines : List Line} (areProper : ∀ line ∈ lines, line.IsProper) {entries : List Entry}
    (areLines :
      entries.map (·.content) = lines.flatMap (·.member.contents) ++ [.mappingEnd])
    (outer : Yaml.Mark) (fields : Fields) {fuel : Nat} (enough : lines.length < fuel) :
    readFields document outer fuel fields entries = lines.foldlM (Fields.add outer) fields := by
  induction lines generalizing entries fields fuel with
  | nil =>
      obtain ⟨fuel, rfl⟩ := Nat.exists_eq_add_one_of_ne_zero (Nat.ne_of_gt enough)
      obtain ⟨⟨content, mark⟩, behind, rfl, rfl, isBehind⟩ := List.map_eq_cons_iff.mp areLines
      rfl
  | cons line lines inductionHypothesis =>
      -- The fuel is spent on keys, of which each line has one.
      rw [List.forall_mem_cons] at areProper
      obtain ⟨fuel, rfl⟩ := Nat.exists_eq_add_one_of_ne_zero (Nat.ne_zero_of_lt enough)
      rw [List.flatMap_cons, SimpleMember.contents, List.append_assoc, List.cons_append] at areLines
      obtain ⟨⟨content, mark⟩, entries, rfl, rfl, areLater⟩ := List.map_eq_cons_iff.mp areLines
      obtain ⟨behind, isRead, isBehind⟩ :=
        readField_line document areProper.1 areLater outer line.key fields
      have notEnd : Content.bare .plain line.member.key ≠ .mappingEnd := by
        simp [Content.bare]
      have isKey : String.ofList line.member.key = line.key := String.ofList_toList
      rw [readFields, List.foldlM_cons]
      simp only [notEnd, if_false, scalarText?_bare, keyPath_bare, isKey, isRead]
      cases fields.add outer line with
      | error failure => rfl
      | ok fields =>
          exact inductionHypothesis areProper.2 isBehind fields (Nat.lt_of_succ_lt_succ enough)

/-! ## Keys that are given twice -/

/-- The names that have been read and those that lines give. -/
def Fields.names (fields : Fields) (lines : List Line) : List (List String) :=
  fields.exclude.toList ++ lines.filterMap Line.names?

/-- The sizes that have been read and those that lines give. -/
def Fields.sizes (fields : Fields) (lines : List Line) : List (Option Nat) :=
  fields.maxFileSize.toList ++ (lines.filterMap Line.size?).map some

/-- If no known key is given twice, the settings are what the lines give. -/
theorem foldlM_add_eq_ok
    {fields : Fields} {lines : List Line} (noSecondNames : (fields.names lines).length ≤ 1)
    (noSecondSize : (fields.sizes lines).length ≤ 1) (outer : Yaml.Mark) :
    lines.foldlM (Fields.add outer) fields =
      .ok
        { exclude := (fields.names lines).head?
          maxFileSize := (fields.sizes lines).head? } := by
  -- What a line gives goes over from the lines to the fields, and the lists of both stay the same.
  induction lines generalizing fields with
  | nil =>
      simp only [Fields.names, Fields.sizes, List.filterMap_nil, List.map_nil, List.append_nil,
        Option.head?_toList]
      rfl
  | cons line lines inductionHypothesis =>
      obtain ⟨exclude, maxFileSize⟩ := fields
      cases line with
      | exclude names =>
          cases exclude with
          | none => exact inductionHypothesis noSecondNames noSecondSize
          | some given => simp [Fields.names, Line.names?] at noSecondNames
      | maxFileSize size =>
          cases maxFileSize with
          | none => exact inductionHypothesis noSecondNames noSecondSize
          | some given => simp [Fields.sizes, Line.size?] at noSecondSize
      | other key value => exact inductionHypothesis noSecondNames noSecondSize

/-- If a known key is given twice, the lines are refused because of such a key. -/
theorem foldlM_add_eq_error
    {fields : Fields} {lines : List Line}
    (second : 2 ≤ (fields.names lines).length ∨ 2 ≤ (fields.sizes lines).length)
    (outer : Yaml.Mark) :
    ∃ key,
      lines.foldlM (Fields.add outer) fields = .error (.unfit "" (.duplicate key) outer) ∧
        ((key = "exclude" ∧ 2 ≤ (fields.names lines).length) ∨
          (key = "max_file_size" ∧ 2 ≤ (fields.sizes lines).length)) := by
  induction lines generalizing fields with
  | nil =>
      obtain ⟨exclude, maxFileSize⟩ := fields
      cases exclude <;> cases maxFileSize <;> simp [Fields.names, Fields.sizes] at second
  | cons line lines inductionHypothesis =>
      obtain ⟨exclude, maxFileSize⟩ := fields
      cases line with
      | exclude names =>
          cases exclude with
          | none => exact inductionHypothesis second
          | some given => exact ⟨"exclude", rfl, .inl ⟨rfl, by simp [Fields.names, Line.names?]⟩⟩
      | maxFileSize size =>
          cases maxFileSize with
          | none => exact inductionHypothesis second
          | some given =>
              exact ⟨"max_file_size", rfl, .inr ⟨rfl, by simp [Fields.sizes, Line.size?]⟩⟩
      | other key value => exact inductionHypothesis second

/-! ## Texts -/

/-- Lines are written one below the other, and the last one may lack its line break. -/
def AreWritten (lines : List Line) (text : List Char) : Prop :=
  SimpleMember.AreWritten (lines.map Line.member) text

/-- Every list of lines can be written, with a line break behind each of them. -/
private theorem areWritten_flatMap (lines : List Line) :
    AreWritten lines (lines.flatMap fun line => line.member.text ++ ['\n']) := by
  induction lines with
  | nil => exact .nil
  | cons line lines inductionHypothesis =>
      rw [List.flatMap_cons, List.append_assoc]
      exact .cons line.member inductionHypothesis

private theorem length_le_length_contents (lines : List Line) :
    lines.length ≤ (lines.flatMap (·.member.contents)).length := by
  rw [List.length_flatMap]
  have atLeast := List.length_le_sum_of_one_le (lines.map (·.member.contents.length))
  rw [List.length_map] at atLeast
  refine atLeast (List.forall_mem_map.mpr fun line _ => ?_)
  exact Nat.succ_pos _

/-- The settings in a text are read line by line. -/
theorem ofYaml_lines
    {lines : List Line} {text : List Char} (written : AreWritten lines text)
    (areProper : ∀ line ∈ lines, line.IsProper) (nonempty : lines ≠ []) :
    ∃ outer,
      ofYaml (Text.bytes text) =
        (lines.foldlM (Fields.add outer) .none).map Fields.finish := by
  have arePlain : ∀ member ∈ lines.map Line.member, member.IsPlain :=
    List.forall_mem_map.mpr fun line isLine => (areProper line isLine).isPlain
  have someMember : lines.map Line.member ≠ [] := by
    simpa using nonempty
  obtain ⟨entries, areEntries, isDocument⟩ :=
    Document.ofBytes_simpleMapping written arePlain someMember
  obtain ⟨⟨content, outer⟩, later, rfl, rfl, areLater⟩ := List.map_eq_cons_iff.mp areEntries
  have areLines :
      later.map (·.content) = lines.flatMap (·.member.contents) ++ [.mappingEnd] := by
    simpa [List.flatMap_map] using areLater
  have enough : lines.length < later.length + 1 := by
    have lengths := congrArg List.length areLines
    have atLeast := length_le_length_contents lines
    simp only [List.length_map, List.length_append] at lengths
    omega
  refine ⟨outer, ?_⟩
  have isRead :
      ofEntries (Document.ofBytes (Text.bytes text))
          ({ content := .mappingStart, mark := outer } :: later) =
        (lines.foldlM (Fields.add outer) .none).map Fields.finish := by
    rw [ofEntries]
    simp only [readFields_lines _ areProper areLines outer .none enough]
  rw [isDocument] at isRead
  rw [ofYaml, isDocument]
  simp only [isRead]
  cases (lines.foldlM (Fields.add outer) .none).map Fields.finish with
  | error failure => rfl
  | ok config => rfl

/-- The file that a path leads to holds a text. -/
def Holds (files : FileSystem) (path : Path) (text : List Char) : Prop :=
  files.readBytes path = .ok (String.ofList text).toUTF8

/-- What is loaded depends on nothing but the text of the file. -/
theorem load_of_holds
    {files : FileSystem} {path : Path} {text : List Char} (holds : Holds files path text) :
    load files path = (ofYaml (Text.bytes text)).mapError .unusable := by
  have areBytes : (String.ofList text).toUTF8.toList = Text.bytes text := rfl
  rw [load, holds]
  simp only [areBytes]
  cases ofYaml (Text.bytes text) with
  | error failure => rfl
  | ok config => rfl

/-! ## Settings in any order -/

private theorem filterMap_others
    {β : Type} {read : Line → Option β} (passesOver : ∀ key value, read (.other key value) = none)
    (others : List (String × String)) :
    (others.map fun other => Line.other other.1 other.2).filterMap read = [] := by
  rw [List.filterMap_map, List.filterMap_eq_nil_iff]
  exact fun other _ => passesOver other.1 other.2

section Order

variable {names : List String} {size? : Option Nat} {others : List (String × String)}
  {lines : List Line}
  (order :
    lines.Perm
      (.exclude names :: (size?.map .maxFileSize).toList ++
        others.map fun other => .other other.1 other.2))

include order

private theorem ne_nil_of_order : lines ≠ [] := by
  rintro rfl
  exact absurd order.symm.eq_nil (List.cons_ne_nil _ _)

private theorem filterMap_names?_of_order : lines.filterMap Line.names? = [names] := by
  have given := order.filterMap Line.names?
  rw [List.filterMap_append, filterMap_others fun _ _ => rfl, List.append_nil] at given
  cases size? <;> exact List.perm_singleton.mp given

private theorem filterMap_size?_of_order : lines.filterMap Line.size? = size?.toList := by
  have given := order.filterMap Line.size?
  rw [List.filterMap_append, filterMap_others fun _ _ => rfl, List.append_nil] at given
  cases size? with
  | none => exact List.perm_nil.mp given
  | some size => exact List.perm_singleton.mp given

/-- Lines in any order give what the keys among them say. -/
theorem foldlM_add_of_order (outer : Yaml.Mark) :
    lines.foldlM (Fields.add outer) .none =
      .ok { exclude := some names, maxFileSize := size?.map some } := by
  have areNames : Fields.none.names lines = [names] := filterMap_names?_of_order order
  have areSizes : Fields.none.sizes lines = (size?.map some).toList := by
    rw [Fields.sizes, filterMap_size?_of_order order]
    cases size? <;> rfl
  have noSecondSize : (Fields.none.sizes lines).length ≤ 1 := by
    rw [areSizes]
    exact Option.length_toList_le
  have noSecondNames : (Fields.none.names lines).length ≤ 1 :=
    Nat.le_of_eq (congrArg List.length areNames)
  rw [foldlM_add_eq_ok noSecondNames noSecondSize, areNames, areSizes, List.head?_cons,
    Option.head?_toList]

/-- One more line for a key that has been given is refused because of that key. -/
theorem foldlM_add_of_second
    {second : Line} {longer : List Line} (longerOrder : longer.Perm (second :: lines))
    (isProper : second.IsProper)
    (isGiven : second.key = "exclude" ∨ (second.key = "max_file_size" ∧ size?.isSome))
    (outer : Yaml.Mark) :
    longer.foldlM (Fields.add outer) .none =
      .error (.unfit "" (.duplicate second.key) outer) := by
  have nameCount : (Fields.none.names longer).length = _ :=
    (longerOrder.filterMap Line.names?).length_eq
  have sizeCount : (Fields.none.sizes longer).length = _ :=
    (List.length_map _).trans (longerOrder.filterMap Line.size?).length_eq
  have areNames := filterMap_names?_of_order order
  have areSizes := filterMap_size?_of_order order
  cases second with
  | exclude more =>
      rw [List.filterMap_cons_some (f := Line.names?) rfl, areNames] at nameCount
      rw [List.filterMap_cons_none rfl, areSizes] at sizeCount
      obtain ⟨key, isError, ⟨rfl, _⟩ | ⟨_, twice⟩⟩ :=
        foldlM_add_eq_error (.inl (Nat.le_of_eq nameCount.symm)) outer
      · exact isError
      · rw [sizeCount] at twice
        exact absurd (twice.trans Option.length_toList_le) (by decide)
  | maxFileSize size =>
      have wasGiven : size?.isSome := by
        simpa [Line.key] using isGiven
      obtain ⟨first, rfl⟩ := Option.isSome_iff_exists.mp wasGiven
      rw [List.filterMap_cons_none rfl, areNames] at nameCount
      rw [List.filterMap_cons_some (f := Line.size?) rfl, areSizes] at sizeCount
      obtain ⟨key, isError, ⟨_, twice⟩ | ⟨rfl, _⟩⟩ :=
        foldlM_add_eq_error (.inr (Nat.le_of_eq sizeCount.symm)) outer
      · rw [nameCount] at twice
        exact absurd twice (Nat.not_succ_le_self 1)
      · exact isError
  | other key value =>
      rcases isGiven with isExclude | ⟨isSize, _⟩
      · exact absurd isExclude isProper.1.unknown
      · exact absurd isSize isProper.1.ne_maxFileSize

end Order

/-- Settings that are written line by line are loaded as they have been written, whatever the order
of the lines.  With one more line for a key that has been given, the text is refused because of that
key. -/
theorem load_reads_lines
    {names : List String} {size? : Option Nat} {others : List (String × String)}
    {lines : List Line}
    (order :
      lines.Perm
        (.exclude names :: (size?.map .maxFileSize).toList ++
          others.map fun other => .other other.1 other.2))
    (areProper : ∀ line ∈ lines, line.IsProper) :
    (∀ files path text, Holds files path text → AreWritten lines text →
        load files path = .ok { exclude := names, maxFileSize := size? }) ∧
      ∀ second longer, longer.Perm (second :: lines) → second.IsProper →
        second.key = "exclude" ∨ (second.key = "max_file_size" ∧ size?.isSome) →
          ∀ files path text, Holds files path text → AreWritten longer text →
            ∃ error mark,
              load files path = .error error ∧
                error = .unusable (.unfit "" (.duplicate second.key) mark) ∧
                  error.causes.head? = some "Failed to parse configuration file" := by
  refine ⟨?_, ?_⟩
  · intro files path text holds written
    obtain ⟨outer, isRead⟩ := ofYaml_lines written areProper (ne_nil_of_order order)
    rw [load_of_holds holds, isRead, foldlM_add_of_order order]
    cases size? <;> rfl
  · intro second longer longerOrder isProper isGiven files path text holds written
    have longerProper : ∀ line ∈ longer, line.IsProper := by
      intro line isLine
      rcases List.mem_cons.mp (longerOrder.mem_iff.mp isLine) with rfl | isLine
      · exact isProper
      · exact areProper line isLine
    have nonempty : longer ≠ [] := by
      rintro rfl
      exact absurd longerOrder.symm.eq_nil (List.cons_ne_nil _ _)
    obtain ⟨outer, isRead⟩ := ofYaml_lines written longerProper nonempty
    refine ⟨_, outer, ?_, rfl, rfl⟩
    rw [load_of_holds holds, isRead, foldlM_add_of_second order longerOrder isProper isGiven]
    rfl

/-- Lines whose names and values look like something else, and whose size is the largest one. -/
def awkwardLines : List Line :=
  [.other "null" "- x: \x7b", .maxFileSize 18446744073709551615,
    .exclude ["a: # b", " \"\\ ", "[null], ~", ""], .other "y" "~"]

def awkwardText : String :=
  "null: \"- x: \x7b\"\nmax_file_size: 18446744073709551615\n" ++
    "exclude: [\"a: # b\", \" \\\"\\\\ \", \"[null], ~\", \"\"]\ny: \"~\"\n"

/-- A file system with one file, which holds a text. -/
def storing (text : String) : FileSystem where
  root := .directory .newDirectory [("config".toUTF8.toList, .file .newFile text.toUTF8)]
  workingDirectory := []

def storedPath : Path :=
  ⟨"/config".toUTF8.toList⟩

theorem holds_storing (text : String) : Holds (storing text) storedPath text.toList := by
  rw [Holds, String.ofList_toList]
  cbv

theorem load_reads_lines_awkward :
    (∀ line ∈ awkwardLines, line.IsProper) ∧
      load (storing awkwardText) storedPath =
          .ok
            { exclude := ["a: # b", " \"\\ ", "[null], ~", ""]
              maxFileSize := some 18446744073709551615 } ∧
        ∃ error mark,
          load (storing ("max_file_size: 0\n" ++ awkwardText)) storedPath = .error error ∧
            error = .unusable (.unfit "" (.duplicate "max_file_size") mark) ∧
              error.causes.head? = some "Failed to parse configuration file" := by
  have order :
      awkwardLines.Perm
        (.exclude ["a: # b", " \"\\ ", "[null], ~", ""] ::
            ((some 18446744073709551615).map .maxFileSize).toList ++
          [("null", "- x: \x7b"), ("y", "~")].map fun other => .other other.1 other.2) := by
    decide
  have areProper : ∀ line ∈ awkwardLines, line.IsProper := by
    have isUnknown : IsUnknownKey "null" := ⟨by simp, by simp, by decide, by simp⟩
    have isOtherUnknown : IsUnknownKey "y" := ⟨by simp, by simp, by decide, by simp⟩
    simp [awkwardLines, Line.IsProper, IsPrintableText, Yaml.IsPrintable, isUnknown,
      isOtherUnknown]
  have written : AreWritten awkwardLines awkwardText.toList :=
    areWritten_flatMap awkwardLines
  have longerWritten :
      AreWritten (.maxFileSize 0 :: awkwardLines)
        ("max_file_size: 0\n" ++ awkwardText).toList := by
    rw [String.toList_append]
    exact .cons (Line.maxFileSize 0).member written
  obtain ⟨loaded, refused⟩ := load_reads_lines order areProper
  refine ⟨areProper, loaded _ _ _ (holds_storing awkwardText) written, ?_⟩
  exact
    refused (.maxFileSize 0) _ (.refl _) (Nat.two_pow_pos 64) (.inr ⟨rfl, rfl⟩) _ _ _
      (holds_storing _) longerWritten

end SourceCritic.Config
