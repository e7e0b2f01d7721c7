import SourceCritic.Analysis
import SourceCritic.Proofs.FileSystem.Following

/-!
# What comes out of a run

A run is refused because of its root, or it looks at some files one after the other and its
violations are those of these files.  `Run.IsRefused` lists the reasons for which a root is refused,
and `Run.scanned` gives the files.
-/

namespace SourceCritic

/-! ## One file -/

namespace FileReport

/-- Whether a file is not larger than a limit, if there is one and the size can be told. -/
def fits (files : FileSystem) (limit : Option Nat) (path : Path) : Bool :=
  match limit with
  | none => true
  | some bound =>
      match files.lookup path with
      | .error _ => true
      | .ok node => node.size ≤ bound

/-- A file that can be read, holds a text and is not larger than the limit. -/
def HoldsText (files : FileSystem) (limit : Option Nat) (path : Path) (text : String) : Prop :=
  ∃ mode content,
    files.lookup path = .ok (.file mode content) ∧ mode.read = true ∧
      String.fromUTF8? content = some text ∧ ∀ bound, limit = some bound → content.size ≤ bound

variable {files : FileSystem} {limit : Option Nat} {path : Path}

private theorem fits_eq_of_lookup {node : Node} (reached : files.lookup path = .ok node)
    (bound : Nat) :
    fits files (some bound) path = decide (node.size ≤ bound) := by
  simp only [fits, reached]

theorem violations_read_of_error
    {error : FileError} (unreached : files.lookup path = .error error) :
    (read files path).violations = [] := by
  simp only [read, FileSystem.readText, FileSystem.readBytes, unreached]

/-- A limit leaves the violations of a file as they are, or leaves them out. -/
theorem violations_ofFile (files : FileSystem) (limit : Option Nat) (path : Path) :
    (ofFile files limit path).violations =
      if fits files limit path then (read files path).violations else [] := by
  cases limit with
  | none => simp [ofFile, fits]
  | some bound =>
      cases reached : files.lookup path with
      | error error => simp [ofFile, fits, reached, violations_read_of_error reached]
      | ok node =>
          by_cases small : node.size ≤ bound
          · simp [ofFile, fits, reached, small, Nat.not_lt.mpr small]
          · simp [ofFile, fits, reached, small, Nat.not_le.mp small]

/-- A text that can be read is analyzed under the path of its file. -/
theorem violations_ofFile_of_holdsText
    {text : String} (holdsText : HoldsText files limit path text) :
    (ofFile files limit path).violations = analyze path.display text := by
  obtain ⟨mode, content, reached, readable, decoded, small⟩ := holdsText
  have withinLimit : fits files limit path = true := by
    cases limit with
    | none => rfl
    | some bound =>
        rw [fits_eq_of_lookup reached]
        exact decide_eq_true (small bound rfl)
  rw [violations_ofFile, if_pos withinLimit, read, FileSystem.readText, FileSystem.readBytes,
    reached]
  simp [readable, decoded]

theorem violations_ofFile_of_not_holdsText
    {mode : Mode} {content : ByteArray}
    (reached : files.lookup path = .ok (.file mode content))
    (noText : ∀ text, ¬ HoldsText files limit path text) :
    (ofFile files limit path).violations = [] := by
  rw [violations_ofFile]
  split
  · rename_i withinLimit
    rw [read, FileSystem.readText, FileSystem.readBytes, reached]
    cases readable : mode.read with
    | false => simp [readable]
    | true =>
        cases decoded : String.fromUTF8? content with
        | none => simp [readable, decoded]
        | some text =>
            refine absurd ⟨mode, content, reached, readable, decoded, ?_⟩ (noText text)
            rintro bound rfl
            rw [fits_eq_of_lookup reached] at withinLimit
            exact of_decide_eq_true withinLimit
  · rfl

end FileReport

/-! ## The files of a run -/

/-- A search fails only if the directory it starts in cannot be opened. -/
theorem SourceFiles.search_eq_error_iff
    {files : FileSystem} {root : Path} (nonempty : root.bytes ≠ [])
    (extra : List String) (cause : FileError) :
    SourceFiles.search files root extra = .error cause ↔
      files.openDirectory (root.absolute files.workingPath) = .error cause := by
  rw [SourceFiles.search, if_neg (by simpa using nonempty)]
  cases opened : files.openDirectory (root.absolute files.workingPath) with
  | error other => simp [opened]
  | ok listing => simp [opened]

namespace Run

variable {files : FileSystem} {config : Config} {root : Path}

/-- The files that a run looks at, or why there are none. -/
def scanned (files : FileSystem) (config : Config) (root : Path) :
    Except AnalysisError (List Path) :=
  (findings files config root).map fun found => found.filterMap SourceFiles.Finding.source?

/-- A run counts its files and puts their violations one after the other. -/
theorem outcome_start (files : FileSystem) (config : Config) (root : Path) :
    (start files config root).outcome =
      (scanned files config root).map fun sources =>
        { filesScanned := sources.length
          violations := sources.flatMap fun path =>
            (FileReport.ofFile files config.maxFileSize path).violations } := by
  rw [start, scanned]
  cases findings files config root with
  | error error => rfl
  | ok found => simp [ofFindings, Except.map, List.flatMap_map]

theorem scanned_of_file
    {mode : Mode} {content : ByteArray} (reached : files.lookup root = .ok (.file mode content)) :
    scanned files config root = .ok (if root.isSupported then [root] else []) := by
  rw [scanned, findings, reached]
  simp only [Except.map]
  split <;> rfl

theorem scanned_of_directory
    {mode : Mode} {entries : List (Name × Node)}
    (reached : files.lookup root = .ok (.directory mode entries))
    {found : List SourceFiles.Finding}
    (searched : SourceFiles.search files root config.exclude = .ok found) :
    scanned files config root = .ok (found.filterMap SourceFiles.Finding.source?) := by
  rw [scanned, findings, reached]
  simp only [searched, Except.map]

/-! ## Roots that are refused -/

/-- Why a run is refused.  The error names the root as it was given. -/
inductive IsRefused (files : FileSystem) (root : Path) : AnalysisError → Prop where
  | missing :
      files.lookup root = .error .noSuchEntry → IsRefused files root (.pathNotFound root)
  | inaccessible {cause : FileError} :
      files.lookup root = .error cause → cause ≠ .noSuchEntry →
        IsRefused files root (.inaccessible root cause)
  | unsupported {node : Node} :
      files.lookup root = .ok node → node.isDirectory = false →
        (∀ mode content, node ≠ .file mode content) →
          IsRefused files root (.unsupportedPath root)
  | unlistable {node : Node} {cause : FileError} :
      files.lookup root = .ok node → node.isDirectory = true →
        files.openDirectory (root.absolute files.workingPath) = .error cause →
          IsRefused files root (.inaccessible root cause)

private theorem isRefused_of_findings
    {error : AnalysisError} (refused : findings files config root = .error error) :
    IsRefused files root error := by
  rw [findings] at refused
  cases reached : files.lookup root with
  | error cause =>
      rw [reached] at refused
      cases cause with
      | noSuchEntry =>
          cases refused
          exact .missing reached
      | _ =>
          cases refused
          exact .inaccessible reached (by simp)
  | ok node =>
      rw [reached] at refused
      cases node with
      | file mode content => cases refused
      | directory mode entries =>
          have nonempty := FileSystem.nonempty_of_lookup reached
          simp only at refused
          cases searched : SourceFiles.search files root config.exclude with
          | error cause =>
              rw [searched] at refused
              cases refused
              have closed := (SourceFiles.search_eq_error_iff nonempty _ cause).mp searched
              exact .unlistable reached rfl closed
          | ok found =>
              rw [searched] at refused
              cases refused
      | _ =>
          cases refused
          exact .unsupported reached rfl (by simp)

private theorem IsRefused.findings_eq_error
    {error : AnalysisError} (refused : IsRefused files root error) :
    findings files config root = .error error := by
  rw [findings]
  cases refused with
  | missing unreached => rw [unreached]
  | @inaccessible cause unreached notMissing =>
      rw [unreached]
      cases cause with
      | noSuchEntry => exact absurd rfl notMissing
      | _ => rfl
  | @unsupported node reached notDirectory notFile =>
      rw [reached]
      cases node with
      | file mode content => exact absurd rfl (notFile mode content)
      | directory mode entries => cases notDirectory
      | _ => rfl
  | @unlistable node cause reached isDirectory closed =>
      have nonempty := FileSystem.nonempty_of_lookup reached
      have refusedSearch :=
        (SourceFiles.search_eq_error_iff nonempty config.exclude cause).mpr closed
      rw [reached]
      cases node with
      | directory mode entries => simp only [refusedSearch]
      | _ => cases isDirectory

/-- A run fails exactly if its root is refused, with the same error. -/
theorem outcome_start_eq_error_iff (error : AnalysisError) :
    (start files config root).outcome = .error error ↔ IsRefused files root error := by
  have failing :
      (start files config root).outcome = .error error ↔
        findings files config root = .error error := by
    rw [outcome_start, scanned]
    cases findings files config root with
    | error other => simp [Except.map]
    | ok found => simp [Except.map]
  rw [failing]
  exact ⟨isRefused_of_findings, IsRefused.findings_eq_error⟩

end Run

end SourceCritic
