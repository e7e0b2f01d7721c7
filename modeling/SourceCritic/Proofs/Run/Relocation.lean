import SourceCritic.Proofs.Rule.Markup
import SourceCritic.Proofs.Run.Outcome
import SourceCritic.Proofs.SourceFiles.Relocation

/-!
# Moving a directory

What a run has to say about a directory depends on the place of the directory in two ways only.  The
path of the directory is the beginning of the path of every file, and if it mentions markup then all
the files count as markup.
-/

namespace SourceCritic

/-! ## The text of a file -/

namespace FileReport

/-- The text that is looked at for a file, if there is one. -/
private def text? (files : FileSystem) (limit : Option Nat) (path : Path) : Option String :=
  if fits files limit path then (files.readText path).toOption else none

private theorem violations_ofFile_eq_elim (files : FileSystem) (limit : Option Nat) (path : Path) :
    (ofFile files limit path).violations =
      (text? files limit path).elim [] (analyze path.display) := by
  rw [violations_ofFile, text?]
  split
  · rw [read]
    cases files.readText path <;> rfl
  · rfl

/-- Only what the path leads to matters for the text. -/
private theorem text?_eq_of_lookup_eq
    {files other : FileSystem} {path otherPath : Path}
    (same : other.lookup otherPath = files.lookup path) (limit : Option Nat) :
    text? other limit otherPath = text? files limit path := by
  unfold text? fits FileSystem.readText FileSystem.readBytes
  rw [same]

end FileReport

/-! ## The path of a directory in the path of a file -/

namespace Violation

/-- The path of the file from a directory on. -/
def relativePath (start : Path) (violation : Violation) : String :=
  String.ofList (violation.filePath.toList.drop start.displayStem.length)

/-- The violation with the path of a directory in the path of the file replaced by that of another
one. -/
def rebase (start other : Path) (violation : Violation) : Violation :=
  violation.inFile
    (String.ofList (other.displayStem ++ (violation.relativePath start).toList))

end Violation

section Moved

open Rule.Inline (MentionsMarkup isMarkup)

variable {start other : Path} {names : List Name}
variable (areEntries : ∀ name ∈ names, IsEntryName name) (nonempty : names ≠ [])

include areEntries nonempty

private theorem relativePath_of_mem_analyze
    {text : String} {violation : Violation}
    (member : violation ∈ analyze (start.joins names).display text) :
    violation.relativePath start = (Path.relative names).display := by
  rw [Violation.relativePath, filePath_of_mem_analyze member,
    start.toList_display_joins areEntries nonempty, List.drop_left, String.ofList_toList]

/-- A violation that is rebased names the file at its other path. -/
theorem map_rebase_analyze (text : String) :
    (analyze (start.joins names).display text).map (Violation.rebase start other) =
      (analyze (start.joins names).display text).map
        (Violation.inFile (other.joins names).display) := by
  refine List.map_congr_left ?_
  intro violation member
  rw [Violation.rebase, relativePath_of_mem_analyze areEntries nonempty member,
    ← other.toList_display_joins areEntries nonempty, String.ofList_toList]

/-- If either path mentions markup or none does, rebasing is all that the move does. -/
theorem analyze_eq_map_rebase
    (sameMention : MentionsMarkup start ↔ MentionsMarkup other) (text : String) :
    analyze (other.joins names).display text =
      (analyze (start.joins names).display text).map (Violation.rebase start other) := by
  rw [map_rebase_analyze areEntries nonempty]
  refine analyze_inFile ?_ text
  rw [Bool.eq_iff_iff, Rule.Inline.isMarkup_display_joins_iff start areEntries nonempty,
    Rule.Inline.isMarkup_display_joins_iff other areEntries nonempty, sameMention]

/-- Where only the other path mentions markup, the move adds inline creations. -/
theorem map_rebase_analyze_eq_filter
    (unmentioned : ¬ MentionsMarkup start) (mentioned : MentionsMarkup other)
    (text : String) :
    (analyze (start.joins names).display text).map (Violation.rebase start other) =
      (analyze (other.joins names).display text).filter fun violation =>
        violation.rule ≠ Rule.inline.name || isMarkup (violation.relativePath other) := by
  have here := Rule.Inline.isMarkup_display_joins_iff start areEntries nonempty
  have there := Rule.Inline.isMarkup_display_joins_iff other areEntries nonempty
  have relative := Rule.Inline.isMarkup_display_iff (Path.relative names)
  rw [or_iff_right unmentioned, ← relative] at here
  rw [map_rebase_analyze areEntries nonempty]
  cases isRelative : isMarkup (Path.relative names).display with
  | true =>
      have same :
          isMarkup (start.joins names).display = isMarkup (other.joins names).display := by
        rw [here.mpr isRelative, there.mpr (Or.inl mentioned)]
      rw [← analyze_inFile same, eq_comm, List.filter_eq_self]
      intro violation member
      rw [relativePath_of_mem_analyze areEntries nonempty member, isRelative, Bool.or_true]
  | false =>
      rw [isRelative, Bool.false_eq_true, iff_false, Bool.not_eq_true] at here
      rw [analyze_inFile_of_not_isMarkup here]
      refine List.filter_congr ?_
      intro violation member
      rw [relativePath_of_mem_analyze areEntries nonempty member, isRelative, Bool.or_false]

end Moved

namespace Run

open Rule.Inline (MentionsMarkup isMarkup)

variable {files other : FileSystem} {root otherRoot : Path} {listed otherListed : Node}

/-- Where the search for the files of a run starts. -/
def startingPath (files : FileSystem) (root : Path) : Path :=
  root.absolute files.workingPath

/-- The violations of the file that names lead to from there. -/
def violationsAt
    (files : FileSystem) (config : Config) (root : Path) (names : List Name) : List Violation :=
  (FileReport.ofFile files config.maxFileSize ((startingPath files root).joins names)).violations

/-- A root that leads to a directory that can be listed and below which no path is too long. -/
structure IsListable (files : FileSystem) (root : Path) (listed : Node) : Prop where
  wellFormed : files.root.IsWellFormed
  reached : ∃ mode entries, files.lookup root = .ok (.directory mode entries)
  opened :
    ∃ mode entries,
      listed = .directory mode entries ∧
        files.openDirectory (startingPath files root) = .ok (mode, entries)
  fits : SourceFiles.FitsBelow (startingPath files root) listed

theorem IsListable.listedWellFormed (listable : IsListable files root listed) :
    listed.IsWellFormed := by
  obtain ⟨mode, entries, rfl, opened⟩ := listable.opened
  exact FileSystem.isWellFormed_of_openDirectory listable.wellFormed opened

/-- A run over a root that can be listed succeeds and enumerates the files below it. -/
theorem IsListable.exists_scanned
    (listable : IsListable files root listed) (config : Config) :
    ∃ sources,
      scanned files config root = .ok sources ∧
        SourceFiles.Enumerates files (SourceFiles.excludedNames config.exclude)
          (startingPath files root) listed sources := by
  obtain ⟨mode, entries, reached⟩ := listable.reached
  obtain ⟨listedMode, listedEntries, rfl, opened⟩ := listable.opened
  obtain ⟨findings, searched, enumerates⟩ :=
    SourceFiles.exists_search_enumerates listable.wellFormed
      (FileSystem.nonempty_of_lookup reached) config.exclude opened
  exact ⟨_, scanned_of_directory reached searched, enumerates⟩

/-- Names that lead to a source file in one place do so in the other. -/
theorem IsListable.isSource_relocated
    {excluded : List Name} {names : List Name}
    (listable : IsListable files root listed)
    (otherListable : IsListable other otherRoot otherListed)
    (same : listed.Reordered otherListed)
    (isSource : SourceFiles.IsSource files excluded (startingPath files root) listed names) :
    SourceFiles.IsSource other excluded (startingPath other otherRoot) otherListed names ∧
      other.lookup ((startingPath other otherRoot).joins names) =
        files.lookup ((startingPath files root).joins names) := by
  obtain ⟨mode, entries, rfl, opened⟩ := listable.opened
  obtain ⟨otherMode, others, rfl, otherOpened⟩ := otherListable.opened
  have sameMode : mode = otherMode := by
    cases same
    rfl
  subst sameMode
  exact
    isSource.relocated listable.listedWellFormed same opened otherOpened listable.fits
      otherListable.fits

/-- The path in a violation is that of the directory followed by the names that lead to the file. -/
def IsRooted (start : Path) (names : List Name) (violation : Violation) : Prop :=
  violation.filePath.toList = start.displayStem ++ (Path.relative names).display.toList

/-- How two runs over the same directory in two places compare.  They look at the files that the
same names lead to.  If both paths mention markup or none does, the violations differ in the path of
the directory only.  If only the second path mentions it, the second run has violations of the rule
about markup in addition, for files that do not mention markup themselves. -/
structure IsMoved
    (files other : FileSystem) (config : Config) (root otherRoot : Path)
    (relatives : List (List Name)) (violations others : List Violation) : Prop where
  scannedHere :
    scanned files config root = .ok (relatives.map (startingPath files root).joins)
  scannedThere :
    scanned other config otherRoot = .ok (relatives.map (startingPath other otherRoot).joins)
  outcomeHere :
    (start files config root).outcome =
      .ok { filesScanned := relatives.length, violations := violations }
  outcomeThere :
    (start other config otherRoot).outcome =
      .ok { filesScanned := relatives.length, violations := others }
  rootedHere :
    ∀ violation ∈ violations, ∃ names ∈ relatives,
      IsRooted (startingPath files root) names violation
  rootedThere :
    ∀ violation ∈ others, ∃ names ∈ relatives,
      IsRooted (startingPath other otherRoot) names violation
  kept :
    (MentionsMarkup (startingPath files root) ↔
      MentionsMarkup (startingPath other otherRoot)) →
    others =
      violations.map (Violation.rebase (startingPath files root) (startingPath other otherRoot))
  thinned :
    ¬ MentionsMarkup (startingPath files root) →
    MentionsMarkup (startingPath other otherRoot) →
    violations.map (Violation.rebase (startingPath files root) (startingPath other otherRoot)) =
      others.filter fun violation =>
        violation.rule ≠ Rule.inline.name ||
          isMarkup (violation.relativePath (startingPath other otherRoot))

/-- The same names lead to the files of both runs, and their violations are those of one text, if
there is one that can be read. -/
theorem exists_relatives
    (listable : IsListable files root listed)
    (otherListable : IsListable other otherRoot otherListed)
    (same : listed.Reordered otherListed) (config : Config) :
    ∃ relatives : List (List Name),
      scanned files config root = .ok (relatives.map (startingPath files root).joins) ∧
        scanned other config otherRoot = .ok (relatives.map (startingPath other otherRoot).joins) ∧
        ∀ names ∈ relatives,
          (∀ name ∈ names, IsEntryName name) ∧ names ≠ [] ∧
            ∃ content : Option String,
              violationsAt files config root names =
                content.elim [] (analyze ((startingPath files root).joins names).display) ∧
              violationsAt other config otherRoot names =
                content.elim [] (analyze ((startingPath other otherRoot).joins names).display) := by
  obtain ⟨sources, scannedHere, enumerates⟩ := listable.exists_scanned config
  obtain ⟨otherSources, scannedThere, otherEnumerates⟩ := otherListable.exists_scanned config
  obtain ⟨relatives, rfl, relative⟩ := enumerates.exists_relatives listable.listedWellFormed
  have otherRelative :
      SourceFiles.EnumeratesRelatives other (SourceFiles.excludedNames config.exclude)
        (startingPath other otherRoot) otherListed relatives := by
    refine ⟨?_, relative.increasing⟩
    intro names
    rw [relative.exact]
    constructor
    · exact fun isSource => (listable.isSource_relocated otherListable same isSource).1
    · exact fun isSource => (otherListable.isSource_relocated listable same.symm isSource).1
  rw [otherEnumerates.eq_map_joins otherRelative otherListable.listedWellFormed] at scannedThere
  refine ⟨relatives, scannedHere, scannedThere, ?_⟩
  intro names member
  have isSource := (relative.exact names).mp member
  refine ⟨isSource.areEntries listable.listedWellFormed, ?_, ?_⟩
  · rintro rfl
    obtain ⟨mode, entries, rfl, _⟩ := listable.opened
    obtain ⟨⟨_, _, impossible⟩, _⟩ := (SourceFiles.isSource_nil_iff _ _).mp isSource
    cases impossible
  · have sameLookup := (listable.isSource_relocated otherListable same isSource).2
    refine
      ⟨FileReport.text? files config.maxFileSize ((startingPath files root).joins names), ?_, ?_⟩
    · rw [violationsAt, FileReport.violations_ofFile_eq_elim]
    · rw [violationsAt, FileReport.violations_ofFile_eq_elim,
        FileReport.text?_eq_of_lookup_eq sameLookup]

private theorem isRooted_of_mem_violationsAt
    {config : Config} {names : List Name} {content : Option String} {violation : Violation}
    (areEntries : ∀ name ∈ names, IsEntryName name) (nonempty : names ≠ [])
    (analyzed :
      violationsAt files config root names =
        content.elim [] (analyze ((startingPath files root).joins names).display))
    (reported : violation ∈ violationsAt files config root names) :
    IsRooted (startingPath files root) names violation := by
  rw [analyzed] at reported
  cases content with
  | none => cases reported
  | some text =>
      rw [IsRooted, filePath_of_mem_analyze reported,
        Path.toList_display_joins _ areEntries nonempty]

private theorem outcome_start_of_relatives
    {config : Config} {relatives : List (List Name)}
    (scannedHere :
      scanned files config root = .ok (relatives.map (startingPath files root).joins)) :
    (start files config root).outcome =
      .ok
        { filesScanned := relatives.length
          violations := relatives.flatMap (violationsAt files config root) } := by
  rw [outcome_start, scannedHere]
  simp only [Except.map, List.length_map, List.flatMap_map]
  rfl

/-- A run over a directory that has been moved looks at the same files in the same order.  The path
of the directory makes a difference only to the paths in the violations, and to the rule about
markup. -/
theorem start_isMoved
    (listable : IsListable files root listed)
    (otherListable : IsListable other otherRoot otherListed)
    (same : listed.Reordered otherListed) (config : Config) :
    ∃ relatives violations others,
      IsMoved files other config root otherRoot relatives violations others := by
  obtain ⟨relatives, scannedHere, scannedThere, facts⟩ :=
    exists_relatives listable otherListable same config
  refine
    ⟨relatives, _, _, scannedHere, scannedThere, outcome_start_of_relatives scannedHere,
      outcome_start_of_relatives scannedThere, ?_, ?_, ?_, ?_⟩
  · intro violation member
    obtain ⟨names, inRelatives, reported⟩ := List.mem_flatMap.mp member
    obtain ⟨areEntries, nonempty, content, here, _⟩ := facts names inRelatives
    exact ⟨names, inRelatives, isRooted_of_mem_violationsAt areEntries nonempty here reported⟩
  · intro violation member
    obtain ⟨names, inRelatives, reported⟩ := List.mem_flatMap.mp member
    obtain ⟨areEntries, nonempty, content, _, there⟩ := facts names inRelatives
    exact ⟨names, inRelatives, isRooted_of_mem_violationsAt areEntries nonempty there reported⟩
  · intro sameMention
    rw [List.map_flatMap]
    refine List.flatMap_congr ?_
    intro names inRelatives
    obtain ⟨areEntries, nonempty, content, here, there⟩ := facts names inRelatives
    rw [here, there]
    cases content with
    | none => rfl
    | some text => exact analyze_eq_map_rebase areEntries nonempty sameMention text
  · intro unmentioned mentioned
    rw [List.map_flatMap, List.filter_flatMap]
    refine List.flatMap_congr ?_
    intro names inRelatives
    obtain ⟨areEntries, nonempty, content, here, there⟩ := facts names inRelatives
    rw [here, there]
    cases content with
    | none => rfl
    | some text =>
        exact map_rebase_analyze_eq_filter areEntries nonempty unmentioned mentioned text

/-! ## A directory in two places -/

/-- A file with an object that is written in place. -/
def movedEntries : List (Name × Node) :=
  [(SourceFiles.asciiName "m.js", .file .newFile ⟨#[0x7B, 0x7B, 0x7D, 0x7D]⟩)]

/-- Two directories with this file.  The path of one of them mentions markup. -/
def movedFiles : FileSystem where
  root :=
    .directory .newDirectory
      [(SourceFiles.asciiName "plain", .directory .newDirectory movedEntries),
        (SourceFiles.asciiName "tsx", .directory .newDirectory movedEntries)]
  workingDirectory := []

theorem isWellFormed_movedEntries : (Node.directory .newDirectory movedEntries).IsWellFormed :=
  .directory (by decide) (by decide) (by simpa [movedEntries] using .file)

private theorem isWellFormed_movedFiles : movedFiles.root.IsWellFormed := by
  refine .directory (by decide) (by decide) ?_
  rw [List.forall_mem_cons, List.forall_mem_singleton]
  exact ⟨isWellFormed_movedEntries, isWellFormed_movedEntries⟩

private theorem fitsBelow_movedEntries
    {start : Path}
    (short :
      ∀ names ∈ [[], [SourceFiles.asciiName "m.js"]],
        (start.joins names).bytes.length ≤ FileSystem.pathLimit) :
    SourceFiles.FitsBelow start (.directory .newDirectory movedEntries) := by
  intro names reached descended
  refine short names ?_
  cases names with
  | nil => exact List.mem_cons_self
  | cons name later =>
      rw [Node.descend_directory, Option.bind_eq_some_iff] at descended
      obtain ⟨entry, found, below⟩ := descended
      cases List.mem_singleton.mp (mem_of_lookup found)
      cases later with
      | nil => exact List.mem_cons_of_mem _ List.mem_cons_self
      | cons next later => cases below

theorem isListable_plain :
    IsListable movedFiles ⟨SourceFiles.asciiName "/plain"⟩
      (.directory .newDirectory movedEntries) :=
  ⟨isWellFormed_movedFiles, ⟨.newDirectory, movedEntries, by cbv⟩,
    ⟨.newDirectory, movedEntries, rfl, by cbv⟩, fitsBelow_movedEntries (by decide)⟩

theorem isListable_tsx :
    IsListable movedFiles ⟨SourceFiles.asciiName "/tsx"⟩
      (.directory .newDirectory movedEntries) :=
  ⟨isWellFormed_movedFiles, ⟨.newDirectory, movedEntries, by cbv⟩,
    ⟨.newDirectory, movedEntries, rfl, by cbv⟩, fitsBelow_movedEntries (by decide)⟩

theorem mentionsMarkup_movedFiles :
    ¬ MentionsMarkup (startingPath movedFiles ⟨SourceFiles.asciiName "/plain"⟩) ∧
      MentionsMarkup (startingPath movedFiles ⟨SourceFiles.asciiName "/tsx"⟩) := by
  rw [MentionsMarkup, MentionsMarkup, Rule.Inline.encode_tsx, Rule.Inline.encode_jsx]
  decide

/-- Below the path that mentions markup there may be more violations, all of them of one rule. -/
theorem start_isMoved_mentioned :
    IsListable movedFiles ⟨SourceFiles.asciiName "/plain"⟩
        (.directory .newDirectory movedEntries) ∧
      IsListable movedFiles ⟨SourceFiles.asciiName "/tsx"⟩
        (.directory .newDirectory movedEntries) ∧
        ∃ relatives violations others,
          IsMoved movedFiles movedFiles .default ⟨SourceFiles.asciiName "/plain"⟩
            ⟨SourceFiles.asciiName "/tsx"⟩ relatives violations others ∧
          violations.length =
            (others.filter fun violation =>
              violation.rule ≠ Rule.inline.name ||
                isMarkup
                  (violation.relativePath
                    (startingPath movedFiles ⟨SourceFiles.asciiName "/tsx"⟩))).length := by
  have same := Node.Reordered.of_isWellFormed isWellFormed_movedEntries
  obtain ⟨relatives, violations, others, isMoved⟩ :=
    start_isMoved isListable_plain isListable_tsx same .default
  refine ⟨isListable_plain, isListable_tsx, relatives, violations, others, isMoved, ?_⟩
  rw [← isMoved.thinned mentionsMarkup_movedFiles.1 mentionsMarkup_movedFiles.2, List.length_map]

end Run

end SourceCritic
