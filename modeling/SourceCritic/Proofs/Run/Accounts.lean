import Mathlib
import SourceCritic.Proofs.Rule.Markup
import SourceCritic.Proofs.Run.Directories

/-!
# Notes about files

A run that succeeds makes exactly one note about each of its files, in the order of the files, and
sums up behind them.  Only the note about a file that was analyzed counts violations, and these
counts add up to the violations of the run: `Run.Accounts` puts all of this together.
-/

namespace SourceCritic

namespace LogEvent

/-- The file of a run that a note is about. -/
def file? : LogEvent → Option Path
  | .oversized file _ _ => some file
  | .unstatable file _ => some file
  | .unreadable file _ => some file
  | .analyzed file _ => some file
  | .skippedEntry _ _ => none
  | .complete _ _ => none

/-- Whether a note is about a file of a run. -/
def isAboutFile (note : LogEvent) : Bool :=
  note.file?.isSome

/-- The violations that a note about a file counts. -/
def count : LogEvent → Nat
  | .analyzed _ violations => violations
  | _ => 0

/-- The files and the violations that a note sums up. -/
def totals? : LogEvent → Option (Nat × Nat)
  | .complete files violations => some (files, violations)
  | _ => none

end LogEvent

/-! ## One file -/

namespace FileReport

/-- What there is to say about a file: its size cannot be told, it is too large, it has no text, or
it was analyzed.  The size is looked at only if there is a limit. -/
inductive Describes (files : FileSystem) (limit : Option Nat) (path : Path) :
    FileReport → Prop where
  | unstatable {bound : Nat} {error : FileError} :
      limit = some bound → files.lookup path = .error error →
        Describes files limit path { violations := [], note := .unstatable path error }
  | oversized {bound : Nat} {node : Node} :
      limit = some bound → files.lookup path = .ok node → bound < node.size →
        Describes files limit path
          { violations := [], note := .oversized path node.size bound }
  | unreadable {error : FileError} :
      (∀ bound, limit = some bound →
        ∃ node, files.lookup path = .ok node ∧ node.size ≤ bound) →
      files.readText path = .error error →
        Describes files limit path { violations := [], note := .unreadable path error }
  | analyzed {text : String} :
      (∀ bound, limit = some bound →
        ∃ node, files.lookup path = .ok node ∧ node.size ≤ bound) →
      files.readText path = .ok text →
        Describes files limit path
          { violations := analyze path.display text
            note := .analyzed path (analyze path.display text).length }

variable {files : FileSystem} {limit : Option Nat} {path : Path}

private theorem describes_read
    (fits : ∀ bound, limit = some bound →
      ∃ node, files.lookup path = .ok node ∧ node.size ≤ bound) :
    Describes files limit path (read files path) := by
  rw [read]
  cases decoded : files.readText path with
  | error error => exact .unreadable fits decoded
  | ok text => exact .analyzed fits decoded

theorem describes_ofFile (files : FileSystem) (limit : Option Nat) (path : Path) :
    Describes files limit path (ofFile files limit path) := by
  cases limit with
  | none => exact describes_read (by simp)
  | some bound =>
      rw [ofFile]
      cases reached : files.lookup path with
      | error error => exact .unstatable rfl reached
      | ok node =>
          by_cases large : node.size > bound
          · simp only [large, if_true]
            exact .oversized rfl reached large
          · simp only [large, if_false]
            refine describes_read ?_
            intro _ isBound
            obtain rfl := Option.some.inj isBound
            exact ⟨node, reached, Nat.not_lt.mp large⟩

variable {report : FileReport}

theorem Describes.file?_note (describes : Describes files limit path report) :
    report.note.file? = some path := by
  cases describes <;> rfl

private theorem Describes.totals?_note (describes : Describes files limit path report) :
    report.note.totals? = none := by
  cases describes <;> rfl

/-- The note about a file counts the violations of the file. -/
theorem Describes.count_note (describes : Describes files limit path report) :
    report.note.count = report.violations.length := by
  cases describes <;> rfl

/-- Only a file that was analyzed has violations. -/
theorem Describes.note_of_mem
    (describes : Describes files limit path report)
    {violation : Violation} (member : violation ∈ report.violations) :
    report.note = .analyzed path report.violations.length ∧ violation.filePath = path.display := by
  cases describes with
  | analyzed fits decoded => exact ⟨rfl, filePath_of_mem_analyze member⟩
  | _ => cases member

end FileReport

/-! ## All files -/

namespace Run

open FileReport (Describes ofFile)

/-- How the notes of a run account for its files.  There is one report for each file, in the order
in which the files are enumerated; the notes about files are those of the reports, and the last note
sums them up. -/
structure Accounts
    (files : FileSystem) (config : Config) (root : Path) (log : List LogEvent)
    (analysis : Analysis) (sources : List Path) (reports : List FileReport) : Prop where
  sourcesOfFile :
    ∀ mode content, files.lookup root = .ok (.file mode content) →
      sources = if root.isSupported then [root] else []
  sourcesOfDirectory :
    ∀ mode entries, files.lookup root = .ok (.directory mode entries) →
      ∃ found,
        SourceFiles.search files root config.exclude = .ok found ∧
          sources = found.filterMap SourceFiles.Finding.source?
  described : List.Forall₂ (Describes files config.maxFileSize) sources reports
  notes : log.filter LogEvent.isAboutFile = reports.map (·.note)
  namedInOrder : log.filterMap LogEvent.file? = sources
  filesScanned : (log.filter LogEvent.isAboutFile).length = analysis.filesScanned
  violations : analysis.violations = reports.flatMap (·.violations)
  counted : (log.map LogEvent.count).sum = analysis.violations.length
  summary : log.filterMap LogEvent.totals? = [(analysis.filesScanned, analysis.violations.length)]
  lastNote : log.getLast? = some (.complete analysis.filesScanned analysis.violations.length)
  silent :
    ∀ report ∈ reports, (∀ path count, report.note ≠ .analyzed path count) →
      report.violations = []
  ofAnalyzed :
    ∀ violation ∈ analysis.violations, ∃ path ∈ sources, ∃ count,
      .analyzed path count ∈ log ∧ violation.filePath = path.display

variable {files : FileSystem} {config : Config} {root : Path}

/-- No note of a search is about a file, counts violations or sums anything up. -/
theorem idle_of_mem_skipNotes
    {found : List SourceFiles.Finding} {note : LogEvent}
    (member : note ∈ found.filterMap skipNote?) :
    note.file? = none ∧ note.count = 0 ∧ note.totals? = none := by
  obtain ⟨finding, _, noted⟩ := List.mem_filterMap.mp member
  cases finding with
  | source path => cases noted
  | unlistable path error =>
      cases noted
      exact ⟨rfl, rfl, rfl⟩

/-- The files among some findings. -/
def sourcesOf (found : List SourceFiles.Finding) : List Path :=
  found.filterMap SourceFiles.Finding.source?

/-- The reports about some files. -/
def reportsOf (files : FileSystem) (limit : Option Nat) (sources : List Path) : List FileReport :=
  sources.map (ofFile files limit)

section Log

variable (files : FileSystem) (limit : Option Nat) (found : List SourceFiles.Finding)

private theorem describes_of_mem_reportsOf
    {sources : List Path} {report : FileReport} (member : report ∈ reportsOf files limit sources) :
    ∃ path ∈ sources, Describes files limit path report := by
  obtain ⟨path, isSource, rfl⟩ := List.mem_map.mp member
  exact ⟨path, isSource, FileReport.describes_ofFile files limit path⟩

theorem log_ofFindings :
    (ofFindings files limit found).log =
      found.filterMap skipNote? ++ (reportsOf files limit (sourcesOf found)).map (·.note) ++
        [.complete (sourcesOf found).length
          ((reportsOf files limit (sourcesOf found)).flatMap (·.violations)).length] :=
  rfl

/-- Notes about files are those of the reports, one for each file and in the same order. -/
theorem filter_isAboutFile_log :
    (ofFindings files limit found).log.filter LogEvent.isAboutFile =
      (reportsOf files limit (sourcesOf found)).map (·.note) := by
  have noneSkipped : (found.filterMap skipNote?).filter LogEvent.isAboutFile = [] := by
    rw [List.filter_eq_nil_iff]
    intro note member
    simp [LogEvent.isAboutFile, (idle_of_mem_skipNotes member).1]
  have allKept :
      ((reportsOf files limit (sourcesOf found)).map (·.note)).filter LogEvent.isAboutFile =
        (reportsOf files limit (sourcesOf found)).map (·.note) := by
    rw [List.filter_eq_self, List.forall_mem_map]
    intro report member
    obtain ⟨path, _, describes⟩ := describes_of_mem_reportsOf files limit member
    rw [LogEvent.isAboutFile, describes.file?_note, Option.isSome_some]
  rw [log_ofFindings, List.filter_append, List.filter_append, noneSkipped, allKept]
  simp [LogEvent.isAboutFile, LogEvent.file?]

theorem filterMap_file?_log :
    (ofFindings files limit found).log.filterMap LogEvent.file? = sourcesOf found := by
  have noneSkipped : (found.filterMap skipNote?).filterMap LogEvent.file? = [] := by
    rw [List.filterMap_eq_nil_iff]
    exact fun note member => (idle_of_mem_skipNotes member).1
  have named :
      ((reportsOf files limit (sourcesOf found)).map (·.note)).filterMap LogEvent.file? =
        sourcesOf found := by
    rw [reportsOf, List.map_map, List.filterMap_map]
    refine (List.filterMap_congr ?_).trans List.filterMap_some
    exact fun path _ => (FileReport.describes_ofFile files limit path).file?_note
  rw [log_ofFindings, List.filterMap_append, List.filterMap_append, noneSkipped, named]
  simp [LogEvent.file?]

theorem filterMap_totals?_log :
    (ofFindings files limit found).log.filterMap LogEvent.totals? =
      [((sourcesOf found).length,
        ((reportsOf files limit (sourcesOf found)).flatMap (·.violations)).length)] := by
  have noneSkipped : (found.filterMap skipNote?).filterMap LogEvent.totals? = [] := by
    rw [List.filterMap_eq_nil_iff]
    exact fun note member => (idle_of_mem_skipNotes member).2.2
  have noneReported :
      ((reportsOf files limit (sourcesOf found)).map (·.note)).filterMap LogEvent.totals? = [] := by
    rw [List.filterMap_eq_nil_iff, List.forall_mem_map]
    intro report member
    obtain ⟨path, _, describes⟩ := describes_of_mem_reportsOf files limit member
    exact describes.totals?_note
  rw [log_ofFindings, List.filterMap_append, List.filterMap_append, noneSkipped, noneReported]
  rfl

theorem sum_count_log :
    ((ofFindings files limit found).log.map LogEvent.count).sum =
      ((reportsOf files limit (sourcesOf found)).flatMap (·.violations)).length := by
  have noneSkipped : ((found.filterMap skipNote?).map LogEvent.count).sum = 0 := by
    rw [List.sum_eq_zero_iff, List.forall_mem_map]
    exact fun note member => (idle_of_mem_skipNotes member).2.1
  have counted :
      ((reportsOf files limit (sourcesOf found)).map (·.note)).map LogEvent.count =
        (reportsOf files limit (sourcesOf found)).map (·.violations.length) := by
    rw [List.map_map]
    refine List.map_congr_left ?_
    intro report member
    obtain ⟨path, _, describes⟩ := describes_of_mem_reportsOf files limit member
    exact describes.count_note
  rw [log_ofFindings, List.map_append, List.map_append, List.sum_append, List.sum_append,
    noneSkipped, counted, List.length_flatMap]
  simp [LogEvent.count]

end Log

/-- The findings of a run tell all that its notes account for. -/
theorem accounts_ofFindings
    {found : List SourceFiles.Finding} (isFound : findings files config root = .ok found) :
    Accounts files config root (ofFindings files config.maxFileSize found).log
      { filesScanned := (sourcesOf found).length
        violations :=
          (reportsOf files config.maxFileSize (sourcesOf found)).flatMap (·.violations) }
      (sourcesOf found) (reportsOf files config.maxFileSize (sourcesOf found)) := by
  have notes := filter_isAboutFile_log files config.maxFileSize found
  have isScanned : scanned files config root = .ok (sourcesOf found) := by
    rw [scanned, isFound]
    rfl
  have described :
      List.Forall₂ (Describes files config.maxFileSize) (sourcesOf found)
        (reportsOf files config.maxFileSize (sourcesOf found)) := by
    rw [reportsOf, List.forall₂_map_right_iff, List.forall₂_same]
    exact fun path _ => FileReport.describes_ofFile files config.maxFileSize path
  refine
    { sourcesOfFile := ?_
      sourcesOfDirectory := ?_
      described := described
      notes := notes
      namedInOrder := filterMap_file?_log files config.maxFileSize found
      filesScanned := ?_
      violations := rfl
      counted := sum_count_log files config.maxFileSize found
      summary := filterMap_totals?_log files config.maxFileSize found
      lastNote := ?_
      silent := ?_
      ofAnalyzed := ?_ }
  · intro mode content reached
    rw [scanned_of_file reached] at isScanned
    exact (Except.ok.inj isScanned).symm
  · intro mode entries reached
    rw [findings, reached] at isFound
    simp only at isFound
    cases searched : SourceFiles.search files root config.exclude with
    | error cause =>
        rw [searched] at isFound
        cases isFound
    | ok other =>
        rw [searched] at isFound
        cases isFound
        exact ⟨found, rfl, rfl⟩
  · rw [notes, List.length_map, reportsOf, List.length_map]
  · rw [log_ofFindings, List.getLast?_concat]
  · intro report member notAnalyzed
    obtain ⟨path, _, describes⟩ := describes_of_mem_reportsOf files config.maxFileSize member
    rw [List.eq_nil_iff_forall_not_mem]
    exact fun violation found => notAnalyzed _ _ (describes.note_of_mem found).1
  · intro violation member
    obtain ⟨report, isReport, ofReport⟩ := List.mem_flatMap.mp member
    obtain ⟨path, isSource, describes⟩ :=
      describes_of_mem_reportsOf files config.maxFileSize isReport
    obtain ⟨noted, filePath⟩ := describes.note_of_mem ofReport
    refine ⟨path, isSource, report.violations.length, ?_, filePath⟩
    rw [← noted, log_ofFindings]
    exact List.mem_append_left _ (List.mem_append_right _ (List.mem_map_of_mem isReport))

/-- A run that succeeds accounts for every file that it counts. -/
theorem start_accounts_for_files
    {analysis : Analysis} (succeeded : (start files config root).outcome = .ok analysis) :
    ∃ sources reports,
      Accounts files config root (start files config root).log analysis sources reports := by
  rw [start] at succeeded ⊢
  cases isFound : findings files config root with
  | error error =>
      rw [isFound] at succeeded
      cases succeeded
  | ok found =>
      rw [isFound] at succeeded
      cases succeeded
      exact ⟨_, _, accounts_ofFindings isFound⟩

/-- Settings that leave every file out that has more than four bytes. -/
def smallOnlyConfig : Config where
  exclude := []
  maxFileSize := some 4

/-- The result of a run with these settings over the guarded file system, in which one file cannot
be reached, another one is too large and two are analyzed. -/
def smallOnlyAnalysis : Analysis where
  filesScanned := 4
  violations := [createdObject "/work/c.jsx", createdObject "/work/d/y.jsx"]

theorem start_accounts_for_files_guarded :
    (start guardedFiles smallOnlyConfig guardedRoot).outcome = .ok smallOnlyAnalysis ∧
      ∃ sources reports,
        Accounts guardedFiles smallOnlyConfig guardedRoot
          (start guardedFiles smallOnlyConfig guardedRoot).log smallOnlyAnalysis sources
          reports := by
  have succeeded :
      (start guardedFiles smallOnlyConfig guardedRoot).outcome = .ok smallOnlyAnalysis := by
    refine outcome_start_guardedFiles smallOnlyConfig ?_ rfl
    intro bound isBound
    cases isBound
    exact Nat.le_refl 4
  exact ⟨succeeded, start_accounts_for_files succeeded⟩

end Run

end SourceCritic
