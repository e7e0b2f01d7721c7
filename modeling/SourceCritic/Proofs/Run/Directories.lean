import Mathlib
import SourceCritic.Proofs.Run.Outcome
import SourceCritic.Proofs.SourceFiles.Pruning

/-!
# Runs over directories

A run over a directory is the runs over its files, one after the other.  The two take different ways
to a file: the run over a directory finds it in a listing, and the run over the file itself follows
its path.  Where a path cannot be followed, the latter is refused and the former has nothing to say
about the file.
-/

namespace SourceCritic.Run

open FileReport (HoldsText ofFile)

variable {files : FileSystem} {config : Config}

/-- What one file adds to the violations of a run over a directory: the violations of a run over the
file itself, or nothing if that run is refused because the file cannot be reached.  These are the
violations of its text, if it has one that can be read and is not too large. -/
structure IsShare
    (files : FileSystem) (config : Config) (path : Path) (share : List Violation) : Prop where
  alone :
    (start files config path).outcome = .ok { filesScanned := 1, violations := share } ∨
      ∃ error,
        files.lookup path = .error error ∧
          (start files config path).outcome = .error (.inaccessible path error) ∧ share = []
  ofText :
    ∀ text, HoldsText files config.maxFileSize path text → share = analyze path.display text
  ofNone :
    (∀ text, ¬ HoldsText files config.maxFileSize path text) → share = []

theorem isShare_of_file
    {path : Path} {mode : Mode} {content : ByteArray}
    (supported : path.isSupported = true)
    (reached : files.lookup path = .ok (.file mode content)) :
    IsShare files config path (ofFile files config.maxFileSize path).violations := by
  have scannedAlone : scanned files config path = .ok [path] := by
    rw [scanned_of_file reached, if_pos supported]
  refine ⟨Or.inl ?_, ?_, ?_⟩
  · rw [outcome_start, scannedAlone]
    simp [Except.map]
  · intro text holdsText
    exact FileReport.violations_ofFile_of_holdsText holdsText
  · exact FileReport.violations_ofFile_of_not_holdsText reached

/-- A file that cannot be reached adds nothing. -/
theorem isShare_of_error
    {path : Path} {error : FileError}
    (unreached : files.lookup path = .error error) (notMissing : error ≠ .noSuchEntry) :
    IsShare files config path (ofFile files config.maxFileSize path).violations := by
  have nothing : (ofFile files config.maxFileSize path).violations = [] := by
    rw [FileReport.violations_ofFile, FileReport.violations_read_of_error unreached, ite_self]
  have refused : (start files config path).outcome = .error (.inaccessible path error) := by
    rw [outcome_start_eq_error_iff]
    exact .inaccessible unreached notMissing
  refine ⟨Or.inr ⟨error, unreached, refused, nothing⟩, ?_, fun _ => nothing⟩
  rintro text ⟨mode, content, reached, _⟩
  rw [unreached] at reached
  cases reached

/-- A run over a directory that can be searched succeeds.  It counts the files that are found, and
its violations are what these files add, one after the other. -/
theorem outcome_start_directory_eq_flatten
    (wellFormed : files.root.IsWellFormed)
    {root : Path} {mode : Mode} {entries : List (Name × Node)}
    (reached : files.lookup root = .ok (.directory mode entries))
    {findings : List SourceFiles.Finding}
    (searched : SourceFiles.search files root config.exclude = .ok findings) :
    ∃ shares : List (List Violation),
      (start files config root).outcome =
        .ok
          { filesScanned := (findings.filterMap SourceFiles.Finding.source?).length
            violations := shares.flatten } ∧
      List.Forall₂ (IsShare files config)
        (findings.filterMap SourceFiles.Finding.source?) shares := by
  refine
    ⟨(findings.filterMap SourceFiles.Finding.source?).map fun path =>
      (ofFile files config.maxFileSize path).violations, ?_, ?_⟩
  · rw [outcome_start, scanned_of_directory reached searched, ← List.flatMap_def]
    rfl
  · rw [List.forall₂_map_right_iff, List.forall₂_same]
    intro path member
    obtain ⟨supported, leads⟩ := SourceFiles.lookup_of_mem_search wellFormed searched member
    rcases leads with ⟨fileMode, content, isFile⟩ | ⟨error, unreached, notMissing⟩
    · exact isShare_of_file supported isFile
    · exact isShare_of_error unreached notMissing

/-! ## A guarded file system -/

/-- A text with an object that is written in place. -/
def inPlace : ByteArray :=
  ⟨#[0x7B, 0x7B, 0x7D, 0x7D]⟩

/-- A file that is no text, a directory and a file with an object that is written in place, and a
file in a directory that may be listed but not searched. -/
def guardedEntries : List (Name × Node) :=
  [(SourceFiles.asciiName "b.js", .file .newFile ⟨#[0xFF, 0xFE, 0xFF, 0xFE, 0xFF]⟩),
    (SourceFiles.asciiName "d",
      .directory .newDirectory [(SourceFiles.asciiName "y.jsx", .file .newFile inPlace)]),
    (SourceFiles.asciiName "c.jsx", .file .newFile inPlace),
    (SourceFiles.asciiName "a",
      .directory { Mode.newDirectory with search := false }
        [(SourceFiles.asciiName "x.js", .file .newFile .empty)])]

def guardedFiles : FileSystem where
  root :=
    .directory .newDirectory
      [(SourceFiles.asciiName "work", .directory .newDirectory guardedEntries)]
  workingDirectory := []

def guardedRoot : Path :=
  ⟨SourceFiles.asciiName "/work"⟩

def guardedSources : List Path :=
  ["/work/a/x.js", "/work/b.js", "/work/c.jsx", "/work/d/y.jsx"].map fun path =>
    ⟨SourceFiles.asciiName path⟩

/-- What is said about the object that is written in place. -/
def createdObject (path : String) : Violation where
  rule := "react_inline_creation"
  filePath := path
  lineNumber := 1
  severity := .moderate
  message := "Inline object creation in JSX causes unnecessary re-renders"
  context := .object [("type", .string "object")]

theorem isWellFormed_guardedFiles : guardedFiles.root.IsWellFormed := by
  refine .directory (by decide) (by decide) ?_
  rw [List.forall_mem_singleton]
  refine .directory (by decide) (by decide) ?_
  rw [guardedEntries, List.forall_mem_cons, List.forall_mem_cons, List.forall_mem_cons,
    List.forall_mem_singleton]
  refine ⟨.file, ?_, .file, ?_⟩
  · exact .directory (by decide) (by decide) (by simpa using .file)
  · exact .directory (by decide) (by decide) (by simpa using .file)

theorem lookup_guardedRoot :
    guardedFiles.lookup guardedRoot = .ok (.directory .newDirectory guardedEntries) := by
  cbv

private theorem analyze_inPlace {path : String} (isMarkup : Rule.Inline.isMarkup path = true) :
    analyze path "\x7b\x7b\x7d\x7d" = [createdObject path] := by
  have size : Rule.Size.check path "\x7b\x7b\x7d\x7d".toList = [] := rfl
  have imports : Rule.Imports.check path "\x7b\x7b\x7d\x7d".toList = [] := rfl
  have nesting : Rule.Nesting.check path "\x7b\x7b\x7d\x7d".toList = [] := rfl
  have functions : Rule.Functions.check path "\x7b\x7b\x7d\x7d".toList = [] := rfl
  have inline :
      Rule.Inline.check path "\x7b\x7b\x7d\x7d".toList = [createdObject path] := by
    have creations :
        Rule.Inline.Creation.object.pattern.occurrences "\x7b\x7b\x7d\x7d".toList =
            [{ place := .start, tail := "\x7b\x7b\x7d\x7d".toList, length := 4 }] ∧
          Rule.Inline.Creation.function.pattern.occurrences "\x7b\x7b\x7d\x7d".toList = [] := by
      decide +kernel
    rw [Rule.Inline.check, if_pos isMarkup]
    simp only [List.flatMap_cons, List.flatMap_nil, creations]
    rfl
  simp only [analyze, Rule.all, Rule.check, List.flatMap_cons, List.flatMap_nil, size, imports,
    nesting, functions, inline, List.nil_append, List.append_nil]

theorem search_guardedFiles :
    SourceFiles.search guardedFiles guardedRoot Config.default.exclude =
      .ok (guardedSources.map .source) := by
  cbv

theorem violations_ofFile_inPlace
    {limit : Option Nat} (fits : ∀ bound, limit = some bound → 4 ≤ bound)
    {path : Path} (reached : guardedFiles.lookup path = .ok (.file .newFile inPlace))
    {shown : String} (display : path.display = shown)
    (isMarkup : Rule.Inline.isMarkup shown = true) :
    (ofFile guardedFiles limit path).violations = [createdObject shown] := by
  have decoded : String.fromUTF8? inPlace = some "\x7b\x7b\x7d\x7d" := by
    decide +kernel
  have holdsText : HoldsText guardedFiles limit path "\x7b\x7b\x7d\x7d" :=
    ⟨.newFile, inPlace, reached, rfl, decoded, fits⟩
  rw [FileReport.violations_ofFile_of_holdsText holdsText, display, analyze_inPlace isMarkup]

/-- The first of the four files cannot be reached, and the second one is no text. -/
theorem map_violations_guardedSources
    {limit : Option Nat} (fits : ∀ bound, limit = some bound → 4 ≤ bound) :
    guardedSources.map (fun path => (ofFile guardedFiles limit path).violations) =
      [[], [], [createdObject "/work/c.jsx"], [createdObject "/work/d/y.jsx"]] := by
  have unreached :
      guardedFiles.lookup ⟨SourceFiles.asciiName "/work/a/x.js"⟩ = .error .denied := by
    cbv
  have reached :
      guardedFiles.lookup ⟨SourceFiles.asciiName "/work/b.js"⟩ =
        .ok (.file .newFile ⟨#[0xFF, 0xFE, 0xFF, 0xFE, 0xFF]⟩) := by
    cbv
  have noText : String.fromUTF8? ⟨#[0xFF, 0xFE, 0xFF, 0xFE, 0xFF]⟩ = none := by
    decide +kernel
  have guarded :
      (ofFile guardedFiles limit ⟨SourceFiles.asciiName "/work/a/x.js"⟩).violations = [] := by
    rw [FileReport.violations_ofFile, FileReport.violations_read_of_error unreached, ite_self]
  have stray :
      (ofFile guardedFiles limit ⟨SourceFiles.asciiName "/work/b.js"⟩).violations = [] := by
    refine FileReport.violations_ofFile_of_not_holdsText reached ?_
    rintro text ⟨_, _, same, _, decoded, _⟩
    rw [reached] at same
    cases same
    rw [noText] at decoded
    cases decoded
  have shallow :
      (ofFile guardedFiles limit ⟨SourceFiles.asciiName "/work/c.jsx"⟩).violations =
        [createdObject "/work/c.jsx"] :=
    violations_ofFile_inPlace fits (by cbv) (by decide +kernel) (by decide +kernel)
  have deep :
      (ofFile guardedFiles limit ⟨SourceFiles.asciiName "/work/d/y.jsx"⟩).violations =
        [createdObject "/work/d/y.jsx"] :=
    violations_ofFile_inPlace fits (by cbv) (by decide +kernel) (by decide +kernel)
  simp only [guardedSources, List.map_cons, List.map_nil, guarded, stray, shallow, deep]

theorem filterMap_source?_guardedSources :
    (guardedSources.map SourceFiles.Finding.source).filterMap SourceFiles.Finding.source? =
      guardedSources := by
  rw [List.filterMap_map]
  exact List.filterMap_some

/-- A run finds an object in two of the four files. -/
theorem outcome_start_guardedFiles
    (config : Config) (fits : ∀ bound, config.maxFileSize = some bound → 4 ≤ bound)
    (excludesNone : config.exclude = []) :
    (start guardedFiles config guardedRoot).outcome =
      .ok
        { filesScanned := 4
          violations := [createdObject "/work/c.jsx", createdObject "/work/d/y.jsx"] } := by
  have searched :
      SourceFiles.search guardedFiles guardedRoot config.exclude =
        .ok (guardedSources.map .source) := by
    rw [excludesNone]
    exact search_guardedFiles
  rw [outcome_start, scanned_of_directory lookup_guardedRoot searched,
    filterMap_source?_guardedSources]
  simp only [Except.map, List.flatMap_def, map_violations_guardedSources fits]
  rfl

/-- Four files are counted, although the first one cannot be reached and the second one is no text;
the others have a violation each. -/
theorem outcome_start_directory_eq_flatten_guarded :
    guardedFiles.root.IsWellFormed ∧
      guardedFiles.lookup guardedRoot = .ok (.directory .newDirectory guardedEntries) ∧
        ∃ shares : List (List Violation),
          (start guardedFiles .default guardedRoot).outcome =
            .ok { filesScanned := 4, violations := shares.flatten } ∧
          List.Forall₂ (IsShare guardedFiles .default) guardedSources shares ∧
          shares.flatten = [createdObject "/work/c.jsx", createdObject "/work/d/y.jsx"] := by
  obtain ⟨shares, succeeded, areShares⟩ :=
    outcome_start_directory_eq_flatten isWellFormed_guardedFiles lookup_guardedRoot
      search_guardedFiles
  rw [filterMap_source?_guardedSources] at succeeded areShares
  have outcome := outcome_start_guardedFiles .default (fun _ noLimit => by cases noLimit) rfl
  have same := Except.ok.inj (succeeded.symm.trans outcome)
  exact
    ⟨isWellFormed_guardedFiles, lookup_guardedRoot, shares, succeeded, areShares,
      congrArg Analysis.violations same⟩

end SourceCritic.Run
