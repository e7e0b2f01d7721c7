import Mathlib
import SourceCritic.Proofs.Pattern.Starts
import SourceCritic.Proofs.Rule.Bodies
import SourceCritic.Proofs.Rule.Overlap
import SourceCritic.Proofs.Text.Bytes

/-!
# Declarations that are reported

The function rule looks at every place where a declaration begins, be it within the body or between
the parentheses of another function, and reports those that are too long or have too many branches,
in the order in which they begin.

Branches are counted by words: a word that begins a branch counts wherever it stands with no word
character on either side.
-/

namespace SourceCritic.Rule.Functions

/-! ## Whole words -/

/-- Whether a word stands between two parts of a text, at the beginning of the second one, with no
word character on either side. -/
def isWholeWord (word before after : List Char) : Bool :=
  word.isPrefixOf after && !before.getLast?.any Text.isWordCharacter &&
    !(after.drop word.length).head?.any Text.isWordCharacter

/-- The number of places where a word stands as a whole. -/
def wholeWordCount (word text : List Char) : Nat :=
  (List.range (text.length + 1)).countP fun start =>
    isWholeWord word (text.take start) (text.drop start)

/-- The words with which a branch begins. -/
def branchBeginnings : List String :=
  ["if", "else", "for", "while", "switch", "case", "try", "catch"]

private theorem branchWords_eq : branchWords = branchBeginnings :=
  rfl

/-- The number of places where some word stands as a whole that begins a branch. -/
def branchCount (text : List Char) : Nat :=
  (branchBeginnings.map fun word => wholeWordCount word.toList text).sum

section WholeWord

variable {word : String} (nonempty : word.toList ≠ []) (covered : CharClass.word.Covers word.toList)

include nonempty covered

private theorem spans_wholeWord_iff (before matched after : List Char) :
    (wholeWord word).Spans before matched after ↔
      matched = word.toList ∧ before.getLast?.any Text.isWordCharacter = false ∧
        after.head?.any Text.isWordCharacter = false := by
  rw [Pattern.Spans, matches_wholeWord_iff]
  refine and_congr_right ?_
  rintro rfl
  -- Both ends of the word are word characters, so an edge asks for none beside them.
  have first : (word.toList ++ after).head?.any Text.isWordCharacter = true := by
    obtain ⟨head, rest, shape⟩ := List.exists_cons_of_ne_nil nonempty
    rw [shape] at covered ⊢
    exact covered head (by simp)
  have last : (before ++ word.toList).getLast?.any Text.isWordCharacter = true := by
    obtain ⟨front, edge, shape⟩ := (List.eq_nil_or_concat _).resolve_left nonempty
    rw [shape, List.concat_eq_append] at covered ⊢
    rw [← List.append_assoc, List.getLast?_concat]
    exact covered edge (by simp)
  simp only [wholeWord, Anchor.holds, first, last]
  simp

private theorem isApart_wholeWord : (wholeWord word).IsApart := by
  intro text start stop laterStart laterStop spanned laterSpanned less
  obtain ⟨before, matched, after, front, inner, rest, rfl, division, ⟨rfl, rfl⟩, ⟨rfl, rfl⟩, spans,
      laterSpans⟩ := spanned.exists_front laterSpanned (Nat.le_of_lt less)
  obtain ⟨rfl, _, _⟩ := (spans_wholeWord_iff nonempty covered _ _ _).mp spans
  obtain ⟨_, edge, _⟩ := (spans_wholeWord_iff nonempty covered _ _ _).mp laterSpans
  by_contra! overlapping
  simp only [List.length_append] at less overlapping
  obtain ⟨back, shape⟩ : front <+: word.toList :=
    List.prefix_of_prefix_length_le ⟨inner ++ rest, division.symm⟩ ⟨after, rfl⟩ (by omega)
  have frontNonempty : front ≠ [] := by
    rintro rfl
    simp at less
  obtain ⟨initial, last, rfl⟩ := (List.eq_nil_or_concat front).resolve_left frontNonempty
  rw [List.concat_eq_append] at shape edge
  rw [← List.append_assoc, List.getLast?_concat, Option.any_some] at edge
  have isWord : Text.isWordCharacter last = true := by
    refine covered last ?_
    rw [← shape]
    simp
  rw [isWord] at edge
  cases edge

private theorem exists_hasSpan_wholeWord_iff (text : List Char) (start : Nat) :
    (∃ stop, (wholeWord word).HasSpan text start stop) ↔
      isWholeWord word.toList (text.take start) (text.drop start) = true := by
  simp only [isWholeWord, Bool.and_eq_true, Bool.not_eq_true', List.isPrefixOf_iff_prefix]
  constructor
  · rintro ⟨_, before, matched, after, rfl, rfl, _, spans⟩
    obtain ⟨rfl, noneBefore, noneAfter⟩ := (spans_wholeWord_iff nonempty covered _ _ _).mp spans
    rw [List.append_assoc, List.take_left, List.drop_left, List.drop_left]
    exact ⟨⟨List.prefix_append _ _, noneBefore⟩, noneAfter⟩
  · rintro ⟨⟨⟨after, shape⟩, noneBefore⟩, noneAfter⟩
    have inText : start ≤ text.length := by
      have positive := List.length_pos_of_ne_nil nonempty
      have counted := congrArg List.length shape
      rw [List.length_append, List.length_drop] at counted
      omega
    rw [← shape, List.drop_left] at noneAfter
    refine
      ⟨_, text.take start, word.toList, after, ?_, List.length_take_of_le inText, rfl,
        (spans_wholeWord_iff nonempty covered _ _ _).mpr ⟨rfl, noneBefore, noneAfter⟩⟩
    rw [List.append_assoc, shape, List.take_append_drop]

/-- A scan for a word finds each place where it stands as a whole. -/
theorem length_occurrences_wholeWord (text : List Char) :
    ((wholeWord word).occurrences text).length = wholeWordCount word.toList text := by
  have starts :=
    (isImpartial_wholeWord nonempty).offsets_eq_filter text (isApart_wholeWord nonempty covered)
      fun start => (exists_hasSpan_wholeWord_iff nonempty covered text start).symm
  rw [wholeWordCount, List.countP_eq_length_filter, ← starts, List.length_map]

end WholeWord

/-- The complexity of a body is the number of its branches, the straight one included. -/
theorem complexity_eq (body : List Char) : complexity body = 1 + branchCount body := by
  have sameCounts :
      ∀ word ∈ branchWords,
        ((wholeWord word).occurrences body).length = wholeWordCount word.toList body := by
    intro word member
    obtain ⟨nonempty, covered⟩ := covers_word_of_mem_branchWords member
    exact length_occurrences_wholeWord nonempty covered body
  rw [complexity, List.map_congr_left sameCounts, branchCount, branchWords_eq,
    List.sum_eq_foldl_nat]
  rfl

/-! ## Sites -/

/-- A declaration in a text: what stands before it, its name and its body. -/
structure Site where
  before : List Char
  name : List Char
  body : List Char
  deriving DecidableEq, Repr

namespace Site

/-- The byte at which a declaration begins. -/
def start (site : Site) : Nat :=
  (Text.bytes site.before).length

/-- The number of branches of a declaration, the straight one included. -/
def branches (site : Site) : Nat :=
  1 + branchCount site.body

/-- The number of lines of a declaration. -/
def lines (site : Site) : Nat :=
  1 + site.body.count '\n'

/-- A text reads as a declaration behind `before`, and the declaration has a body.  The name is
followed by white space or a parenthesis, so it ends where its word characters do. -/
structure IsIn (text : List Char) (site : Site) : Prop where
  declared :
    ∃ gap secondGap rest,
      text =
          site.before ++
            ("function".toList ++ (gap ++ (site.name ++ (secondGap ++ '(' :: rest)))) ∧
        gap ≠ [] ∧ CharClass.space.Covers gap ∧ site.name ≠ [] ∧
          CharClass.word.Covers site.name ∧ CharClass.space.Covers secondGap
  bodied : body? (text.drop site.before.length) = some site.body

/-- A declaration that is too complex. -/
def IsComplex (site : Site) : Prop :=
  10 < site.branches ∨ 50 < site.lines

instance (site : Site) : Decidable site.IsComplex :=
  inferInstanceAs (Decidable (10 < site.branches ∨ 50 < site.lines))

/-- The grade of a declaration that is too complex. -/
def grade (site : Site) : Severity :=
  if 15 < site.branches ∨ 80 < site.lines then .brutal else .moderate

/-- What is said about a declaration that is too complex. -/
def remark (site : Site) : String :=
  let name := String.ofList site.name
  let branches := site.branches
  let lines := site.lines
  if 15 < site.branches ∨ 80 < site.lines then
    s!"Function '{name}' is a complexity nightmare: {branches} branches, {lines} lines"
  else
    s!"Function '{name}' is getting complex: {branches} branches, {lines} lines"

/-- The violation for a declaration that is too complex. -/
def violation (path : String) (site : Site) : Violation where
  rule := "complex_function"
  filePath := path
  lineNumber := 1 + site.before.count '\n'
  severity := site.grade
  message := site.remark
  context := .object [("complexity", .count site.branches), ("lines", .count site.lines)]

/-- What the rule measures of a declaration. -/
def measure (site : Site) : Measure where
  name := site.name
  line := 1 + site.before.count '\n'
  complexity := site.branches
  lines := site.lines

private theorem violation?_measure (path : String) (site : Site) :
    site.measure.violation? path =
      if site.IsComplex then some (site.violation path) else none := by
  have context :
      Json.sortedObject
          [("complexity", .count site.branches), ("lines", .count site.lines)] =
        .object [("complexity", .count site.branches), ("lines", .count site.lines)] :=
    Json.sortedObject_pair (by decide) (by decide) _ _
  by_cases harsh : 15 < site.branches ∨ 80 < site.lines
  · have complex : site.IsComplex := by
      rw [IsComplex]
      omega
    simp only [Measure.violation?, Measure.severity?, Measure.message, measure, violation, grade,
      remark, harsh, complex, if_true, Option.map_some, context]
  · by_cases complex : 10 < site.branches ∨ 50 < site.lines
    · simp only [Measure.violation?, Measure.severity?, Measure.message, measure, violation, grade,
        remark, IsComplex, harsh, complex, if_true, if_false, Option.map_some, context]
    · simp only [Measure.violation?, Measure.severity?, measure, IsComplex, harsh, complex,
        if_false, Option.map_none]

end Site

/-- The declaration at an occurrence, if it has a body. -/
def siteAt? (text : List Char) (occurrence : Occurrence) : Option Site :=
  (body? occurrence.tail).map fun body =>
    { before := text.take occurrence.place.offset
      name := declaredName occurrence.matched
      body := body }

/-- The declarations of a text that have a body, in the order of their occurrences. -/
def sites (text : List Char) : List Site :=
  (declaration.occurrences text).filterMap (siteAt? text)

/-! ## Occurrences of declarations -/

private theorem exists_hasSpan_of_isIn
    {text : List Char} {site : Site} (isIn : site.IsIn text) :
    ∃ stop, declaration.HasSpan text site.before.length stop := by
  obtain ⟨gap, secondGap, rest, shape, gapNonempty, gapCovered, nonempty, covered, secondCovered⟩ :=
    isIn.declared
  have matching :
      Matches declaration.items
        ("function".toList ++ (gap ++ (site.name ++ (secondGap ++ ['('])))) := by
    rw [declaration, matches_text_append_iff]
    refine ⟨_, rfl, ?_⟩
    rw [matches_one_many_iff]
    refine ⟨gap, _, rfl, gapNonempty, gapCovered, ?_⟩
    rw [matches_one_many_iff]
    refine ⟨site.name, _, rfl, nonempty, covered, ?_⟩
    rw [matches_many_iff]
    refine ⟨secondGap, _, rfl, secondCovered, ?_⟩
    exact .one rfl .nil
  exact ⟨_, site.before, _, rest, by rw [shape]; simp, rfl, rfl, matching, rfl, rfl⟩

private theorem declaredName_of_isIn
    {text : List Char} {site : Site} (isIn : site.IsIn text) :
    declaredName (text.drop site.before.length) = site.name := by
  obtain ⟨gap, secondGap, rest, shape, _, gapCovered, nonempty, covered, secondCovered⟩ :=
    isIn.declared
  have tail :
      text.drop site.before.length =
        "function".toList ++ (gap ++ (site.name ++ (secondGap ++ '(' :: rest))) := by
    rw [shape, List.drop_left]
  rw [tail]
  exact
    declaredName_append gapCovered nonempty covered
      (stops_word_gap_parenthesis secondCovered rest)

private theorem siteAt?_between (before matched after : List Char) :
    siteAt? (before ++ matched ++ after) (.between before matched after) =
      (body? (matched ++ after)).map fun body =>
        { before := before, name := declaredName matched, body := body } := by
  have front : (before ++ matched ++ after).take before.length = before := by
    rw [List.append_assoc, List.take_left]
  simp only [siteAt?, Occurrence.matched_between]
  simp only [Occurrence.between, Text.Place.behind, front]

/-- What stands at the occurrence of a declaration is a declaration of the text. -/
theorem isIn_of_siteAt?
    {text : List Char} {occurrence : Occurrence} {site : Site}
    (member : occurrence ∈ declaration.occurrences text)
    (found : siteAt? text occurrence = some site) :
    site.IsIn text ∧ occurrence.place = .behind site.before := by
  obtain ⟨before, matched, after, rfl, rfl, spans⟩ :=
    isImpartial_declaration.exists_between_of_mem text member
  obtain ⟨gap, name, secondGap, rfl, gapNonempty, gapCovered, nonempty, covered, secondCovered⟩ :=
    exists_shape_of_matches_declaration spans.1
  rw [siteAt?_between,
    declaredName_append gapCovered nonempty covered (stops_word_gap_parenthesis secondCovered []),
    Option.map_eq_some_iff] at found
  obtain ⟨body, isBody, rfl⟩ := found
  refine ⟨⟨?_, ?_⟩, rfl⟩
  · exact
      ⟨gap, secondGap, after, by simp, gapNonempty, gapCovered, nonempty, covered, secondCovered⟩
  · rw [List.append_assoc before, List.drop_left]
    exact isBody

/-- A declaration is told by where it begins. -/
theorem Site.IsIn.eq
    {text : List Char} {site other : Site}
    (isIn : site.IsIn text) (otherIsIn : other.IsIn text)
    (sameLength : other.before.length = site.before.length) :
    other = site := by
  have sameBefore : other.before = site.before := by
    obtain ⟨_, _, _, shape, _⟩ := isIn.declared
    obtain ⟨_, _, _, otherShape, _⟩ := otherIsIn.declared
    exact (List.append_inj (otherShape.symm.trans shape) sameLength).1
  have sameName : other.name = site.name := by
    rw [← declaredName_of_isIn otherIsIn, sameLength, declaredName_of_isIn isIn]
  have sameBody : other.body = site.body := by
    have bodied := otherIsIn.bodied
    rw [sameLength, isIn.bodied] at bodied
    exact (Option.some.inj bodied).symm
  cases site
  cases other
  simp_all only

/-- The sites of a text are exactly its declarations with a body. -/
theorem mem_sites_iff (text : List Char) (site : Site) : site ∈ sites text ↔ site.IsIn text := by
  rw [sites, List.mem_filterMap]
  constructor
  · rintro ⟨occurrence, member, found⟩
    exact (isIn_of_siteAt? member found).1
  · intro isIn
    -- Declarations do not overlap, so there is an occurrence where this one begins.
    obtain ⟨occurrence, member, offset⟩ :=
      (isImpartial_declaration.exists_offset_iff text isApart_declaration _).mpr
        (exists_hasSpan_of_isIn isIn)
    obtain ⟨before, matched, after, rfl, rfl, _⟩ :=
      isImpartial_declaration.exists_between_of_mem text member
    have sameLength : before.length = site.before.length :=
      offset
    have bodied : body? (matched ++ after) = some site.body := by
      have found := isIn.bodied
      rwa [← sameLength, List.append_assoc, List.drop_left] at found
    have found := siteAt?_between before matched after
    rw [bodied, Option.map_some] at found
    obtain ⟨otherIsIn, _⟩ := isIn_of_siteAt? member found
    exact ⟨_, member, by rw [found, isIn.eq otherIsIn sameLength]⟩

/-- The sites of a text are listed in the order in which they begin. -/
theorem pairwise_start_sites (text : List Char) :
    (sites text).Pairwise fun first second => first.start < second.start := by
  refine List.pairwise_filterMap.mpr ((isImpartial_declaration.pairwise_offset text).imp_of_mem ?_)
  intro first second inFirst inSecond less site found laterSite laterFound
  obtain ⟨isIn, place⟩ := isIn_of_siteAt? inFirst found
  obtain ⟨laterIsIn, laterPlace⟩ := isIn_of_siteAt? inSecond laterFound
  rw [place, laterPlace] at less
  have fewer : site.before.length < laterSite.before.length :=
    less
  -- What stands before the later one begins with what stands before the earlier one.
  obtain ⟨_, _, _, shape, _⟩ := isIn.declared
  obtain ⟨_, _, _, laterShape, _⟩ := laterIsIn.declared
  have isPrefix : site.before <+: laterSite.before :=
    List.prefix_of_prefix_length_le ⟨_, shape.symm⟩ ⟨_, laterShape.symm⟩ (Nat.le_of_lt fewer)
  exact Text.length_bytes_lt_of_prefix isPrefix fewer

/-! ## The rule as a whole -/

private theorem ofOccurrence?_eq_measure
    {text : List Char} {occurrence : Occurrence}
    (member : occurrence ∈ declaration.occurrences text) :
    Measure.ofOccurrence? occurrence = (siteAt? text occurrence).map Site.measure := by
  obtain ⟨before, matched, after, rfl, rfl, _⟩ :=
    isImpartial_declaration.exists_between_of_mem text member
  rw [siteAt?_between, Option.map_map, Measure.ofOccurrence?, Occurrence.matched_between]
  simp only [complexity_eq]
  rfl

/-- The rule reports the sites that are too complex. -/
theorem check_eq_map_sites (path : String) (text : List Char) :
    check path text =
      ((sites text).filter fun site => decide site.IsComplex).map (Site.violation path) := by
  have measured :
      (declaration.occurrences text).filterMap Measure.ofOccurrence? =
        (sites text).map Site.measure := by
    rw [sites, List.map_filterMap]
    exact List.filterMap_congr fun occurrence member => ofOccurrence?_eq_measure member
  rw [check, measured, List.filterMap_map, ← List.filterMap_eq_filter, List.map_filterMap]
  refine List.filterMap_congr ?_
  intro site _
  rw [Function.comp_apply, Site.violation?_measure]
  by_cases complex : site.IsComplex
  · simp [complex]
  · simp [complex]

/-- The declarations of a text that are reported. -/
def reported (text : List Char) : List Site :=
  (sites text).filter fun site => decide site.IsComplex

theorem mem_reported_iff (text : List Char) (site : Site) :
    site ∈ reported text ↔ site.IsIn text ∧ site.IsComplex := by
  rw [reported, List.mem_filter, mem_sites_iff, decide_eq_true_eq]

theorem pairwise_start_reported (text : List Char) :
    (reported text).Pairwise fun first second => first.start < second.start :=
  (pairwise_start_sites text).filter _

theorem check_eq_map_reported (path : String) (text : List Char) :
    check path text = (reported text).map (Site.violation path) :=
  check_eq_map_sites path text

/-- The rule reports exactly the declarations of a text that have a body and are too complex, each
of them once and in the order in which they begin. -/
theorem check_reports_each_site (path : String) (text : List Char) :
    ∃ reported : List Site,
      (∀ site, site ∈ reported ↔ site.IsIn text ∧ site.IsComplex) ∧
        (reported.Pairwise fun first second => first.start < second.start) ∧
          check path text = reported.map (Site.violation path) := by
  refine
    ⟨(sites text).filter fun site => decide site.IsComplex, ?_,
      (pairwise_start_sites text).filter _, check_eq_map_sites path text⟩
  intro site
  rw [List.mem_filter, mem_sites_iff, decide_eq_true_eq]

end SourceCritic.Rule.Functions
