import SourceCritic.Proofs.Run.Directories

/-!
# Settings of a run

Settings only leave something out.  A run with settings is compared with the run over the same root
without any: it is refused for the same reason or not at all, it looks at those files that are not
below an excluded directory, and it has the violations of those among them that are not too large.
-/

namespace SourceCritic.Run

variable {files : FileSystem} {config : Config} {root : Path}

/-- The violations of a file without a limit. -/
def violationsOf (files : FileSystem) (path : Path) : List Violation :=
  (FileReport.read files path).violations

private theorem flatMap_violations_ofFile
    (files : FileSystem) (limit : Option Nat) (sources : List Path) :
    (sources.flatMap fun path => (FileReport.ofFile files limit path).violations) =
      (sources.filter (FileReport.fits files limit)).flatMap (violationsOf files) := by
  induction sources with
  | nil => rfl
  | cons path later inductionHypothesis =>
      rw [List.flatMap_cons, inductionHypothesis, FileReport.violations_ofFile]
      by_cases withinLimit : FileReport.fits files limit path = true
      · rw [if_pos withinLimit, List.filter_cons_of_pos withinLimit, List.flatMap_cons]
        rfl
      · rw [if_neg withinLimit, List.filter_cons_of_neg withinLimit, List.nil_append]

private theorem outcome_start_of_scanned
    {sources : List Path} (scannedSources : scanned files config root = .ok sources) :
    (start files config root).outcome =
      .ok
        { filesScanned := sources.length
          violations :=
            (sources.filter (FileReport.fits files config.maxFileSize)).flatMap
              (violationsOf files) } := by
  rw [outcome_start, scannedSources, ← flatMap_violations_ofFile]
  rfl

theorem outcome_start_default_of_scanned
    {sources : List Path} (scannedSources : scanned files .default root = .ok sources) :
    (start files .default root).outcome =
      .ok
        { filesScanned := sources.length
          violations := sources.flatMap (violationsOf files) } := by
  have noLimit : sources.filter (FileReport.fits files Config.default.maxFileSize) = sources := by
    rw [List.filter_eq_self]
    exact fun path _ => rfl
  rw [outcome_start_of_scanned scannedSources, noLimit]

/-- Whether a run looks at a file when names are excluded, besides those that always are.  They
matter below a directory only. -/
def isKept (files : FileSystem) (root : Path) (extra : List String) (path : Path) : Bool :=
  match files.lookup root with
  | .ok (.directory _ _) => SourceFiles.isKept (root.absolute files.workingPath) extra path
  | _ => true

private theorem filter_isKept_of_file
    {mode : Mode} {content : ByteArray} (reached : files.lookup root = .ok (.file mode content))
    (extra : List String) (sources : List Path) :
    sources.filter (isKept files root extra) = sources := by
  rw [List.filter_eq_self]
  intro path _
  simp only [isKept, reached]

private theorem filter_isKept_of_directory
    {mode : Mode} {entries : List (Name × Node)}
    (reached : files.lookup root = .ok (.directory mode entries))
    (extra : List String) (sources : List Path) :
    sources.filter (isKept files root extra) =
      sources.filter (SourceFiles.isKept (root.absolute files.workingPath) extra) := by
  refine List.filter_congr ?_
  intro path _
  simp only [isKept, reached]

/-- Neither the order nor the repetition of excluded names matters. -/
theorem isKept_congr
    {extra others : List String} (same : ∀ name, name ∈ others ↔ name ∈ extra)
    (files : FileSystem) (root : Path) :
    isKept files root others = isKept files root extra := by
  funext path
  rw [isKept, isKept]
  split
  · exact SourceFiles.isKept_congr same _ path
  · rfl

/-- Excluding names leaves some files out, and changes nothing else. -/
theorem scanned_eq_filter
    (wellFormed : files.root.IsWellFormed) (config : Config) (root : Path) :
    scanned files config root =
      (scanned files .default root).map fun sources =>
        sources.filter (isKept files root config.exclude) := by
  cases reached : files.lookup root with
  | error cause => cases cause <;> simp [scanned, findings, reached, Except.map]
  | ok node =>
      cases node with
      | file mode content =>
          rw [scanned_of_file reached, scanned_of_file reached, Except.map,
            filter_isKept_of_file reached]
      | directory mode entries =>
          have nonempty := FileSystem.nonempty_of_lookup reached
          cases opened : files.openDirectory (root.absolute files.workingPath) with
          | error cause =>
              have refused :=
                fun extra => (SourceFiles.search_eq_error_iff nonempty extra cause).mpr opened
              simp [scanned, findings, reached, refused, Except.map]
          | ok listing =>
              obtain ⟨listedMode, listed⟩ := listing
              -- Whether a search succeeds does not depend on what is excluded.
              obtain ⟨found, searched, _⟩ :=
                SourceFiles.exists_search_enumerates wellFormed nonempty config.exclude opened
              obtain ⟨all, searchedAll, _⟩ :=
                SourceFiles.exists_search_enumerates wellFormed nonempty Config.default.exclude
                  opened
              rw [scanned_of_directory reached searched, scanned_of_directory reached searchedAll,
                Except.map, filter_isKept_of_directory reached,
                SourceFiles.sources_search_eq_filter wellFormed searched searchedAll]
      | _ => simp [scanned, findings, reached, Except.map]

/-- No settings make a run fail, and none keep it from failing. -/
theorem outcome_start_eq_error_iff_default
    (wellFormed : files.root.IsWellFormed) (config : Config) (root : Path)
    (error : AnalysisError) :
    (start files config root).outcome = .error error ↔
      (start files .default root).outcome = .error error := by
  rw [outcome_start, outcome_start, scanned_eq_filter wellFormed]
  cases scanned files .default root with
  | error other => simp [Except.map]
  | ok sources => simp [Except.map]

/-- How a run with settings compares with the run without any, where `sources` are the files of the
latter and `kept` those of the former. -/
structure Narrows
    (files : FileSystem) (config : Config) (root : Path) (sources kept : List Path) : Prop where
  scannedAll : scanned files .default root = .ok sources
  scannedKept : scanned files config root = .ok kept
  outcomeAll :
    (start files .default root).outcome =
      .ok { filesScanned := sources.length, violations := sources.flatMap (violationsOf files) }
  outcomeKept :
    (start files config root).outcome =
      .ok
        { filesScanned := kept.length
          violations :=
            (kept.filter (FileReport.fits files config.maxFileSize)).flatMap
              (violationsOf files) }
  ofFile :
    ∀ mode content, files.lookup root = .ok (.file mode content) → kept = sources
  ofDirectory :
    ∀ mode entries, files.lookup root = .ok (.directory mode entries) →
      kept =
        sources.filter
          (SourceFiles.isKept (root.absolute files.workingPath) config.exclude)
  sameNames :
    ∀ other : Config, (∀ name, name ∈ other.exclude ↔ name ∈ config.exclude) →
      scanned files other root = .ok kept

/-- Settings only leave something out: a run with settings fails exactly if the run without any
does, in the same way, and otherwise it has those files of the latter that are not below an excluded
directory, and their violations as far as they are not too large. -/
theorem start_narrows_default
    (wellFormed : files.root.IsWellFormed) (config : Config) (root : Path) :
    (∀ error,
      (start files config root).outcome = .error error ↔
        (start files .default root).outcome = .error error) ∧
    ∀ analysis, (start files .default root).outcome = .ok analysis →
      ∃ sources kept, Narrows files config root sources kept := by
  refine ⟨outcome_start_eq_error_iff_default wellFormed config root, ?_⟩
  intro analysis succeeded
  have filtered := fun config => scanned_eq_filter wellFormed config root
  cases scannedAll : scanned files .default root with
  | error error =>
      rw [outcome_start, scannedAll] at succeeded
      cases succeeded
  | ok sources =>
      simp only [scannedAll, Except.map] at filtered
      have scannedKept := filtered config
      refine
        ⟨sources, sources.filter (isKept files root config.exclude), scannedAll, scannedKept,
          outcome_start_default_of_scanned scannedAll, outcome_start_of_scanned scannedKept,
          ?_, ?_, ?_⟩
      · intro mode content reached
        exact filter_isKept_of_file reached config.exclude sources
      · intro mode entries reached
        exact filter_isKept_of_directory reached config.exclude sources
      · intro other same
        rw [filtered other, isKept_congr same]

/-- Settings for the guarded file system: a name that is excluded twice, and a limit. -/
def guardedConfig : Config where
  exclude := ["d", "d"]
  maxFileSize := some 4

/-- One of the four files is below the excluded directory, and with it one of the two violations. -/
theorem start_narrows_default_guarded :
    guardedFiles.root.IsWellFormed ∧
      Narrows guardedFiles guardedConfig guardedRoot guardedSources (guardedSources.take 3) ∧
      (start guardedFiles .default guardedRoot).outcome =
        .ok
          { filesScanned := 4
            violations := [createdObject "/work/c.jsx", createdObject "/work/d/y.jsx"] } ∧
      (start guardedFiles guardedConfig guardedRoot).outcome =
        .ok { filesScanned := 3, violations := [createdObject "/work/c.jsx"] } := by
  have scannedAll : scanned guardedFiles .default guardedRoot = .ok guardedSources := by
    rw [scanned_of_directory lookup_guardedRoot search_guardedFiles,
      filterMap_source?_guardedSources]
  have scannedKept :
      scanned guardedFiles guardedConfig guardedRoot = .ok (guardedSources.take 3) := by
    cbv
  obtain ⟨_, compared⟩ :=
    start_narrows_default isWellFormed_guardedFiles guardedConfig guardedRoot
  obtain ⟨sources, kept, narrows⟩ := compared _ (outcome_start_default_of_scanned scannedAll)
  obtain rfl := Except.ok.inj (narrows.scannedAll.symm.trans scannedAll)
  obtain rfl := Except.ok.inj (narrows.scannedKept.symm.trans scannedKept)
  refine ⟨isWellFormed_guardedFiles, narrows, ?_, ?_⟩
  · exact outcome_start_guardedFiles .default (fun _ noLimit => by cases noLimit) rfl
  · have fits : ∀ bound, guardedConfig.maxFileSize = some bound → 4 ≤ bound := by
      intro bound isBound
      cases isBound
      exact Nat.le_refl 4
    rw [outcome_start, scannedKept]
    simp only [Except.map, List.flatMap_def, List.map_take, map_violations_guardedSources fits]
    rfl

end SourceCritic.Run
