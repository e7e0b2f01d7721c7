import Mathlib
import SourceCritic.Proofs.FileSystem.Places
import SourceCritic.Proofs.Run.Outcome
import SourceCritic.Proofs.SourceFiles.Enumeration

/-!
# Runs that are refused

Only the root decides whether a run is refused, and with which error: what its path leads to, and
whether the directory there can be opened under its absolute path.  So nothing that happens below
the root matters, as long as the path of the root does not lead through it.
-/

namespace SourceCritic.Run

variable {files other : FileSystem} {config : Config} {root : Path}

/-- The reasons to refuse a root depend on how its path ends, as it was given and in its absolute
form. -/
theorem IsRefused.of_same
    (sameRoot : FileSystem.SameLookup (files.lookup root) (other.lookup root))
    (sameStart :
      FileSystem.SameLookup (files.lookup (root.absolute files.workingPath))
        (other.lookup (root.absolute other.workingPath)))
    {error : AnalysisError} (refused : IsRefused files root error) :
    IsRefused other root error := by
  cases refused with
  | missing unreached =>
      rw [unreached] at sameRoot
      exact .missing sameRoot.eq_error
  | inaccessible unreached notMissing =>
      rw [unreached] at sameRoot
      exact .inaccessible sameRoot.eq_error notMissing
  | unsupported reached notDirectory notFile =>
      rw [reached] at sameRoot
      obtain ⟨otherNode, otherReached, sameBare⟩ := sameRoot.exists_ok
      obtain rfl := Node.eq_of_bare_eq notDirectory sameBare
      exact .unsupported otherReached notDirectory notFile
  | @unlistable node cause reached isDirectory closed =>
      have otherClosed := sameStart.openDirectory_eq_error closed
      rw [reached] at sameRoot
      obtain ⟨otherNode, otherReached, sameBare⟩ := sameRoot.exists_ok
      cases node with
      | directory mode entries =>
          obtain ⟨others, rfl⟩ := Node.exists_directory_of_bare_eq rfl sameBare
          exact .unlistable otherReached rfl otherClosed
      | _ => cases isDirectory

/-- The places that a run over a root visits before it looks below the root. -/
def visitedRoot (files : FileSystem) (root : Path) : List (List Name) :=
  files.visited root ++ files.visited (root.absolute files.workingPath)

/-- Why a run is refused depends on the places on the way to its root only. -/
theorem isRefused_iff_of_agreeAt
    (same : files.AgreeAt other (visitedRoot files root)) (error : AnalysisError) :
    IsRefused other root error ↔ IsRefused files root error := by
  have sameWorking : other.workingPath = files.workingPath := by
    rw [FileSystem.workingPath, FileSystem.workingPath, same.workingDirectory]
  have sameRoot := same.of_append_left.sameLookup
  have sameStart :
      FileSystem.SameLookup (files.lookup (root.absolute files.workingPath))
        (other.lookup (root.absolute other.workingPath)) := by
    rw [sameWorking]
    exact same.of_append_right.sameLookup
  constructor
  · exact IsRefused.of_same sameRoot.symm sameStart.symm
  · exact IsRefused.of_same sameRoot sameStart

/-- A run fails exactly with the error for which its root is refused, and succeeds if there is none.
So two file systems with the same at all places that the path of the root visits, as it was given
and in its absolute form, make the run succeed alike or fail with the same error: whatever they
differ in may stand anywhere else, and so anywhere below the root where its own path does not
lead. -/
theorem start_fails_iff_root_refused
    (files : FileSystem) (config : Config) (root : Path) :
    (∀ error, (start files config root).outcome = .error error ↔ IsRefused files root error) ∧
    ((∃ analysis, (start files config root).outcome = .ok analysis) ↔
      ∀ error, ¬ IsRefused files root error) ∧
    ∀ other, files.AgreeAt other (visitedRoot files root) →
      (start other config root).outcome.map (fun _ => ()) =
        (start files config root).outcome.map fun _ => () := by
  have failing :
      ∀ state error,
        (start state config root).outcome = .error error ↔ IsRefused state root error := by
    intro state error
    exact outcome_start_eq_error_iff error
  refine ⟨failing files, ?_, ?_⟩
  · simp only [← failing files]
    cases (start files config root).outcome with
    | error error => simp
    | ok analysis => simp
  · intro other same
    have alike : ∀ error,
        (start other config root).outcome = .error error ↔
          (start files config root).outcome = .error error := by
      intro error
      rw [failing other, failing files, isRefused_iff_of_agreeAt same]
    cases outcome : (start files config root).outcome with
    | error error => rw [(alike error).mpr outcome]
    | ok analysis =>
        cases otherOutcome : (start other config root).outcome with
        | error error =>
            rw [(alike error).mp otherOutcome] at outcome
            cases outcome
        | ok otherAnalysis => rfl

/-- A file system that has in common with the small one the two directories on the way to its
root, but none of its files. -/
def strippedFiles : FileSystem where
  root :=
    .directory .newDirectory
      [(SourceFiles.asciiName "work",
        .directory .newDirectory
          [(SourceFiles.asciiName "b.js", .file .newFile ⟨#[0xFF]⟩),
            (SourceFiles.asciiName "a", .directory .newDirectory [])])]
  workingDirectory := []

/-- The directory above `a`, told by a path that leads through `a`. -/
def roundaboutRoot : Path :=
  ⟨SourceFiles.asciiName "/work/a/.."⟩

private theorem agreeAt_strippedFiles :
    SourceFiles.smallFiles.AgreeAt strippedFiles
      (visitedRoot SourceFiles.smallFiles roundaboutRoot) := by
  have places :
      ((visitedRoot SourceFiles.smallFiles roundaboutRoot).all fun place =>
        [[], [SourceFiles.asciiName "work"],
          [SourceFiles.asciiName "work", SourceFiles.asciiName "a"]].contains place) = true := by
    cbv
  refine ⟨rfl, ?_⟩
  intro place visited
  have known := List.all_eq_true.mp places place visited
  simp only [List.contains_eq_mem, decide_eq_true_eq, List.mem_cons, List.not_mem_nil, or_false]
    at known
  rcases known with rfl | rfl | rfl
  · rfl
  · rfl
  · rfl

theorem start_fails_iff_root_refused_stripped :
    SourceFiles.smallFiles.AgreeAt strippedFiles
        (visitedRoot SourceFiles.smallFiles roundaboutRoot) ∧
      (start strippedFiles .default roundaboutRoot).outcome.map (fun _ => ()) =
        (start SourceFiles.smallFiles .default roundaboutRoot).outcome.map fun _ => () := by
  obtain ⟨_, _, alike⟩ :=
    start_fails_iff_root_refused SourceFiles.smallFiles .default roundaboutRoot
  exact ⟨agreeAt_strippedFiles, alike strippedFiles agreeAt_strippedFiles⟩

end SourceCritic.Run
