import SourceCritic.Proofs.FileSystem.Stems
import SourceCritic.Proofs.SourceFiles.Pruning

/-!
# The same directory in another place

Two directories with the same entries may stand in different places, in one file system or in two.
If no path below them is too long, the same names lead to source files in both, in the same order,
and the paths of these files lead to the same contents.
-/

namespace SourceCritic.SourceFiles

variable {files other : FileSystem} {excluded : List Name}

/-- No path below an entry is too long. -/
def FitsBelow (path : Path) (node : Node) : Prop :=
  ∀ names reached,
    node.descend names = some reached → (path.joins names).bytes.length ≤ FileSystem.pathLimit

/-- If no path below a directory is too long, none below one of its entries is. -/
theorem FitsBelow.join
    {path : Path} {mode : Mode} {entries : List (Name × Node)} {name : Name} {entry : Node}
    (fits : FitsBelow path (.directory mode entries))
    (found : entries.lookup name = some entry) :
    FitsBelow (path.join name) entry := by
  intro names reached descended
  refine fits (name :: names) reached ?_
  rw [Node.descend_of_lookup found, descended]

private theorem FitsBelow.not_long
    {path : Path} {node : Node} (fits : FitsBelow path node) :
    ¬ path.bytes.length > FileSystem.pathLimit :=
  Nat.not_lt.mpr (fits [] node rfl)

private theorem isPassedOver_of_reordered
    {node otherNode : Node} (same : node.Reordered otherNode) (name : Name) :
    isPassedOver excluded name otherNode = isPassedOver excluded name node := by
  cases same <;> rfl

/-- Below a directory whose paths are not too long, an entry opens if modes allow it. -/
theorem openDirectory_join_of_fits
    {path : Path} {mode lowerMode : Mode} {entries lowerEntries : List (Name × Node)} {name : Name}
    (opened : files.openDirectory path = .ok (mode, entries))
    (fits : FitsBelow path (.directory mode entries))
    (isEntry : IsEntryName name)
    (found : entries.lookup name = some (.directory lowerMode lowerEntries)) :
    files.openDirectory (path.join name) =
      if mode.search && lowerMode.read then .ok (lowerMode, lowerEntries) else .error .denied := by
  rw [FileSystem.openDirectory_join opened isEntry found, if_neg (fits.join found).not_long]

private theorem lookup_join_of_fits
    {path : Path} {mode fileMode : Mode} {content : ByteArray} {entries : List (Name × Node)}
    {name : Name}
    (opened : files.openDirectory path = .ok (mode, entries))
    (fits : FitsBelow path (.directory mode entries))
    (isEntry : IsEntryName name)
    (found : entries.lookup name = some (.file fileMode content)) :
    files.lookup (path.join name) =
      if mode.search then .ok (.file fileMode content) else .error .denied := by
  have reached := ((FileSystem.openDirectory_eq_ok_iff_lookup _ _ _ _).mp opened).1
  rw [FileSystem.lookup_join reached isEntry found (by simp), if_neg (fits.join found).not_long]

/-- Names that lead to a source file in one place do so in the other, and to the same contents. -/
theorem IsSource.relocated
    {path otherPath : Path} {mode : Mode} {entries others : List (Name × Node)} {names : List Name}
    (isSource : IsSource files excluded path (.directory mode entries) names)
    (wellFormed : (Node.directory mode entries).IsWellFormed)
    (same : (Node.directory mode entries).Reordered (.directory mode others))
    (opened : files.openDirectory path = .ok (mode, entries))
    (otherOpened : other.openDirectory otherPath = .ok (mode, others))
    (fits : FitsBelow path (.directory mode entries))
    (otherFits : FitsBelow otherPath (.directory mode others)) :
    IsSource other excluded otherPath (.directory mode others) names ∧
      other.lookup (otherPath.joins names) = files.lookup (path.joins names) := by
  induction names generalizing path otherPath mode entries others with
  | nil =>
      obtain ⟨⟨_, _, impossible⟩, _⟩ := (isSource_nil_iff path _).mp isSource
      cases impossible
  | cons name later inductionHypothesis =>
      obtain ⟨_, entry, _, found, notPassed, isSourceBelow⟩ :=
        (isSource_cons_iff path mode entries name later).mp isSource
      have inEntries := mem_of_lookup found
      obtain ⟨isEntry, entryWellFormed⟩ : IsEntryName name ∧ entry.IsWellFormed := by
        cases wellFormed with
        | directory _ proper below => exact ⟨proper _ inEntries, below _ inEntries⟩
      obtain ⟨otherEntry, otherFound, sameEntry⟩ :
          ∃ otherEntry, others.lookup name = some otherEntry ∧ entry.Reordered otherEntry := by
        cases same with
        | directory sameNames sameEntries =>
            obtain ⟨otherEntry, otherFound⟩ := Node.lookup_of_perm sameNames found
            exact ⟨otherEntry, otherFound, sameEntries name entry otherEntry found otherFound⟩
      rw [← isPassedOver_of_reordered sameEntry] at notPassed
      cases sameEntry with
      | @file fileMode content =>
          obtain rfl := isSourceBelow.eq_nil rfl
          obtain ⟨_, supported⟩ := (isSource_nil_iff _ _).mp isSourceBelow
          rw [path.isSupported_join otherPath isEntry] at supported
          constructor
          · exact
              IsSource.cons otherOpened otherFound notPassed
                ((isSource_nil_iff _ _).mpr ⟨⟨fileMode, content, rfl⟩, supported⟩)
          · simp only [Path.joins_cons, Path.joins_nil]
            rw [lookup_join_of_fits otherOpened otherFits isEntry otherFound,
              lookup_join_of_fits opened fits isEntry found]
      | @directory lowerMode lowerEntries lowerOthers lowerNames lowerSame =>
          have nonempty : later ≠ [] := by
            rintro rfl
            obtain ⟨⟨_, _, impossible⟩, _⟩ := (isSource_nil_iff _ _).mp isSourceBelow
            cases impossible
          -- The search has opened the lower directory here, so the modes allow it there too.
          obtain ⟨_, listing, lowerOpened⟩ := isSourceBelow.through [] later rfl nonempty
          have result := openDirectory_join_of_fits opened fits isEntry found
          have otherResult := openDirectory_join_of_fits otherOpened otherFits isEntry otherFound
          have allowed : (mode.search && lowerMode.read) = true := by
            cases allowed : mode.search && lowerMode.read with
            | true => rfl
            | false =>
                rw [Path.joins_nil, result, allowed] at lowerOpened
                cases lowerOpened
          rw [if_pos allowed] at result otherResult
          obtain ⟨otherIsSource, sameResult⟩ :=
            inductionHypothesis isSourceBelow entryWellFormed (.directory lowerNames lowerSame)
              result otherResult (fits.join found) (otherFits.join otherFound)
          exact ⟨otherIsSource.cons otherOpened otherFound notPassed, sameResult⟩
      | link =>
          exact absurd isSourceBelow (not_isSource (by simp) (by simp [Node.isDirectory]) later)
      | pipe =>
          exact absurd isSourceBelow (not_isSource (by simp) (by simp [Node.isDirectory]) later)
      | device =>
          exact absurd isSourceBelow (not_isSource (by simp) (by simp [Node.isDirectory]) later)

/-! ## Names relative to the start of a search -/

private theorem append_lt_append_left_iff (front first second : List Name) :
    front ++ first < front ++ second ↔ first < second := by
  induction front with
  | nil => rw [List.nil_append, List.nil_append]
  | cons name front inductionHypothesis =>
      rw [List.cons_append, List.cons_append, List.cons_lt_cons_self, inductionHypothesis]

/-- A list of the names that lead from the start of a search to the source files: in the order of
the names. -/
structure EnumeratesRelatives
    (files : FileSystem) (excluded : List Name) (start : Path) (listed : Node)
    (relatives : List (List Name)) : Prop where
  exact : ∀ names, names ∈ relatives ↔ IsSource files excluded start listed names
  increasing : relatives.Pairwise fun first second => first < second

/-- The paths that a search finds are the start of the search with names behind it. -/
theorem Enumerates.exists_relatives
    {start : Path} {listed : Node} {sources : List Path}
    (enumerates : Enumerates files excluded start listed sources)
    (wellFormed : listed.IsWellFormed) :
    ∃ relatives,
      sources = relatives.map start.joins ∧
        EnumeratesRelatives files excluded start listed relatives := by
  have named (names : List Name) (isSource : IsSource files excluded start listed names) :
      (start.joins names).names.drop start.names.length = names := by
    rw [start.names_joins (isSource.areEntries wellFormed), List.drop_left]
  have rejoined : ∀ path ∈ sources, start.joins (path.names.drop start.names.length) = path := by
    intro path member
    obtain ⟨names, isSource, rfl⟩ := (enumerates.exact path).mp member
    rw [named names isSource]
  refine ⟨sources.map fun path => path.names.drop start.names.length, ?_, ?_, ?_⟩
  · rw [List.map_map]
    exact ((List.map_congr_left rejoined).trans (List.map_id sources)).symm
  · intro names
    rw [List.mem_map]
    constructor
    · rintro ⟨path, member, rfl⟩
      obtain ⟨names, isSource, rfl⟩ := (enumerates.exact path).mp member
      rwa [named names isSource]
    · intro isSource
      have member := (enumerates.exact _).mpr ⟨names, isSource, rfl⟩
      exact ⟨start.joins names, member, named names isSource⟩
  · rw [List.pairwise_map]
    refine enumerates.increasing.imp_of_mem ?_
    intro first second firstMember secondMember less
    obtain ⟨names, isSource, rfl⟩ := (enumerates.exact first).mp firstMember
    obtain ⟨others, isOther, rfl⟩ := (enumerates.exact second).mp secondMember
    rw [named names isSource, named others isOther]
    rwa [start.names_joins (isSource.areEntries wellFormed),
      start.names_joins (isOther.areEntries wellFormed), append_lt_append_left_iff] at less

/-- The names determine the order of the files. -/
theorem Enumerates.eq_map_joins
    {start : Path} {listed : Node} {sources : List Path} {relatives : List (List Name)}
    (enumerates : Enumerates files excluded start listed sources)
    (relative : EnumeratesRelatives files excluded start listed relatives)
    (wellFormed : listed.IsWellFormed) :
    sources = relatives.map start.joins := by
  refine eq_of_increasing ?_ enumerates.increasing ?_
  · rw [List.pairwise_map]
    refine relative.increasing.imp_of_mem ?_
    intro first second firstMember secondMember less
    rw [start.names_joins (((relative.exact first).mp firstMember).areEntries wellFormed),
      start.names_joins (((relative.exact second).mp secondMember).areEntries wellFormed),
      append_lt_append_left_iff]
    exact less
  · intro path
    rw [enumerates.exact, List.mem_map]
    constructor
    · rintro ⟨names, isSource, rfl⟩
      exact ⟨names, (relative.exact names).mpr isSource, rfl⟩
    · rintro ⟨names, member, rfl⟩
      exact ⟨names, (relative.exact names).mp member, rfl⟩

end SourceCritic.SourceFiles
