import SourceCritic.Proofs.FileSystem.Paths
import SourceCritic.Proofs.Text.Lossy

/-!
# Paths below a path

A path below another one is written as the stem of the latter, which ends with a slash, and the path
that leads on from there.  Its text is divided in the same way, whether it is UTF-8 or not.
-/

namespace SourceCritic.Path

/-- What stands in front of the names that lead on from a path: the path, and a slash unless it ends
with one. -/
def stem (path : Path) : List UInt8 :=
  (path.join []).bytes

def displayStem (path : Path) : List Char :=
  if path.endsInSlash then path.display.toList else path.display.toList ++ ['/']

/-- The path of names with slashes between them. -/
def relative (names : List Name) : Path :=
  ⟨[slash].intercalate names⟩

private theorem stem_of_endsInSlash {path : Path} (ends : path.endsInSlash = true) :
    path.stem = path.bytes := by
  rw [stem, join, if_pos ends, List.append_nil]

private theorem stem_of_not_endsInSlash {path : Path} (openEnded : ¬ path.endsInSlash = true) :
    path.stem = path.bytes ++ [slash] := by
  rw [stem, join, if_neg openEnded]

/-- The stem ends with a slash, which may be one more than the path has. -/
theorem exists_stem_eq (path : Path) :
    ∃ front,
      path.stem = front ++ [slash] ∧ (path.bytes = front ∨ path.bytes = front ++ [slash]) := by
  by_cases ends : path.endsInSlash = true
  · have last : path.bytes.getLast? = some slash := by
      simpa [endsInSlash] using ends
    obtain ⟨front, shape⟩ := List.getLast?_eq_some_iff.mp last
    exact ⟨front, by rw [stem_of_endsInSlash ends, shape], Or.inr shape⟩
  · exact ⟨path.bytes, stem_of_not_endsInSlash ends, Or.inl rfl⟩

private theorem bytes_join (path : Path) (name : Name) :
    (path.join name).bytes = path.stem ++ name := by
  by_cases ends : path.endsInSlash = true
  · rw [join, if_pos ends, stem_of_endsInSlash ends]
  · rw [join, if_neg ends, stem_of_not_endsInSlash ends, List.append_assoc, List.singleton_append]

private theorem not_endsInSlash_join (path : Path) {name : Name} (isEntry : IsEntryName name) :
    ¬ (path.join name).endsInSlash = true := by
  rw [endsInSlash, bytes_join, List.getLast?_append_of_ne_nil _ isEntry.nonempty, decide_eq_true_eq]
  intro last
  exact isEntry.noSlash (List.mem_of_getLast? last)

/-- A path below another one is its stem and the names that lead on. -/
theorem bytes_joins
    (path : Path) {names : List Name} (areEntries : ∀ name ∈ names, IsEntryName name)
    (nonempty : names ≠ []) :
    (path.joins names).bytes = path.stem ++ (relative names).bytes := by
  induction names generalizing path with
  | nil => exact absurd rfl nonempty
  | cons name later inductionHypothesis =>
      rw [List.forall_mem_cons] at areEntries
      rw [joins_cons]
      cases later with
      | nil => rw [joins_nil, bytes_join, relative, List.intercalate_singleton]
      | cons next later =>
          rw [inductionHypothesis (path.join name) areEntries.2 (List.cons_ne_nil next later),
            stem_of_not_endsInSlash (path.not_endsInSlash_join areEntries.1), bytes_join, relative,
            relative, List.intercalate_cons_cons]
          simp

private theorem lossy_stem (path : Path) : Text.lossy path.stem = path.displayStem := by
  rw [displayStem, display, String.toList_ofList]
  by_cases ends : path.endsInSlash = true
  · rw [if_pos ends, stem_of_endsInSlash ends]
  · rw [if_neg ends, stem_of_not_endsInSlash ends, Text.lossy_append (by simp; decide),
      Text.lossy_ascii (by decide), Text.lossy_nil]
    rfl

/-- Because of the slash between them, a path and the names below it are shown one after the other.
-/
theorem toList_display_joins
    (path : Path) {names : List Name} (areEntries : ∀ name ∈ names, IsEntryName name)
    (nonempty : names ≠ []) :
    (path.joins names).display.toList = path.displayStem ++ (relative names).display.toList := by
  obtain ⟨front, shape, _⟩ := path.exists_stem_eq
  rw [display, display, String.toList_ofList, String.toList_ofList, ← lossy_stem,
    bytes_joins path areEntries nonempty, shape, List.append_assoc, List.singleton_append,
    Text.lossy_append_cons (by decide)]

/-- Whether a file is criticised depends on its own name only. -/
theorem isSupported_join (path other : Path) {name : Name} (isEntry : IsEntryName name) :
    (path.join name).isSupported = (other.join name).isSupported := by
  have sameName : (path.join name).fileName? = (other.join name).fileName? := by
    rw [fileName?, fileName?, path.names_join isEntry, other.names_join isEntry,
      List.getLast?_concat, List.getLast?_concat]
  rw [isSupported, isSupported, sameName]

end SourceCritic.Path
