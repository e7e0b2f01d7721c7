import SourceCritic.Proofs.SourceFiles.Enumeration

/-!
# Excluded directories

Names may be excluded from a search.  The search then passes over the directories with these names,
at any depth; the main result says that it finds what a search without them finds, less the files
below such a directory.

A file that the search finds need not be within reach: its directory may forbid searching, and its
path may be too long.  Its path never leads anywhere else, though, and is never found missing.
-/

namespace SourceCritic.SourceFiles

variable {files : FileSystem} {excluded : List Name}

/-! ## What the search has opened -/

private theorem exists_opened_of_search
    {root : Path} {extra : List String} {findings : List Finding}
    (searched : search files root extra = .ok findings) :
    root.bytes ≠ [] ∧
      ∃ mode entries,
        files.openDirectory (root.absolute files.workingPath) = .ok (mode, entries) := by
  rw [search] at searched
  split at searched
  · cases searched
  · rename_i nonempty
    refine ⟨by simpa using nonempty, ?_⟩
    cases opened : files.openDirectory (root.absolute files.workingPath) with
    | error error =>
        simp only [opened] at searched
        cases searched
    | ok listing => exact ⟨listing.1, listing.2, rfl⟩

/-! ## Where the paths of source files lead -/

private theorem isDirectory_of_isSource
    {path : Path} {node : Node} {names : List Name}
    (isSource : IsSource files excluded path node names) (nonempty : names ≠ []) :
    ∃ mode entries, node = .directory mode entries := by
  obtain ⟨⟨mode, entries, descended⟩, _⟩ := isSource.through [] names rfl nonempty
  exact ⟨mode, entries, Option.some.inj descended⟩

/-- The path of a source file leads to a file, or cannot be followed to its end. -/
theorem IsSource.lookup
    {path : Path} {mode : Mode} {entries : List (Name × Node)} {names : List Name}
    (isSource : IsSource files excluded path (.directory mode entries) names)
    (wellFormed : (Node.directory mode entries).IsWellFormed)
    (opened : files.openDirectory path = .ok (mode, entries)) :
    (∃ fileMode content, files.lookup (path.joins names) = .ok (.file fileMode content)) ∨
      ∃ error, files.lookup (path.joins names) = .error error ∧ error ≠ .noSuchEntry := by
  induction names generalizing path mode entries with
  | nil =>
      obtain ⟨⟨_, _, impossible⟩, _⟩ := (isSource_nil_iff path _).mp isSource
      cases impossible
  | cons name later inductionHypothesis =>
      obtain ⟨_, entry, _, found, _, isSourceBelow⟩ :=
        (isSource_cons_iff path mode entries name later).mp isSource
      have inEntries := mem_of_lookup found
      have opensBelow := Opens.of_openDirectory opened wellFormed inEntries
      cases wellFormed with
      | directory distinct proper below =>
          have isEntry : IsEntryName name :=
            proper _ inEntries
          -- The file itself is only looked up; a directory before it has been opened by the search,
          -- so its path does not fail.
          by_cases isLast : later = []
          · subst isLast
            obtain ⟨⟨fileMode, content, rfl⟩, _⟩ := (isSource_nil_iff _ entry).mp isSourceBelow
            have reached := ((FileSystem.openDirectory_eq_ok_iff_lookup _ _ _ _).mp opened).1
            have result := FileSystem.lookup_join reached isEntry found (by simp)
            rw [Path.joins_cons, Path.joins_nil, result]
            split
            · exact Or.inr ⟨.nameTooLong, rfl, by simp⟩
            split
            · exact Or.inl ⟨fileMode, content, rfl⟩
            · exact Or.inr ⟨.denied, rfl, by simp⟩
          · obtain ⟨lowerMode, lowerEntries, rfl⟩ := isDirectory_of_isSource isSourceBelow isLast
            obtain ⟨_, listing, openedBelow⟩ := isSourceBelow.through [] later rfl isLast
            have result := opensBelow lowerMode lowerEntries rfl
            have openedEntry :
                files.openDirectory (path.join name) = .ok (lowerMode, lowerEntries) := by
              rw [Path.joins_nil] at openedBelow
              rw [openedBelow] at result ⊢
              split at result
              · cases result
              split at result
              · exact result
              · cases result
            exact inductionHypothesis isSourceBelow (below _ inEntries) openedEntry

/-- What a search finds has a supported extension, and it is a file or cannot be reached, but it is
never missing. -/
theorem lookup_of_mem_search
    (wellFormed : files.root.IsWellFormed)
    {root : Path} {extra : List String} {findings : List Finding}
    (searched : search files root extra = .ok findings)
    {path : Path} (member : path ∈ findings.filterMap Finding.source?) :
    path.isSupported = true ∧
      ((∃ mode content, files.lookup path = .ok (.file mode content)) ∨
        ∃ error, files.lookup path = .error error ∧ error ≠ .noSuchEntry) := by
  obtain ⟨nonempty, mode, entries, opened⟩ := exists_opened_of_search searched
  obtain ⟨listed, searchedToo, enumerates⟩ :=
    exists_search_enumerates wellFormed nonempty extra opened
  rw [searched] at searchedToo
  injection searchedToo with sameFindings
  rw [sameFindings, enumerates.exact] at member
  obtain ⟨names, isSource, rfl⟩ := member
  have listedWellFormed := FileSystem.isWellFormed_of_openDirectory wellFormed opened
  exact ⟨isSource.supported, isSource.lookup listedWellFormed opened⟩

/-! ## Directories on the way -/

/-- The names of the directories below another one that lead to a file. -/
def foldersBelow (start path : Path) : List Name :=
  (path.names.drop start.names.length).dropLast

private theorem foldersBelow_joins
    (start : Path) {names : List Name} (areEntries : ∀ name ∈ names, IsEntryName name) :
    foldersBelow start (start.joins names) = names.dropLast := by
  rw [foldersBelow, start.names_joins areEntries, List.drop_left]

/-- Whether none of the directories that lead to a file has an excluded name. -/
def isKept (start : Path) (extra : List String) (path : Path) : Bool :=
  (foldersBelow start path).all fun name => !(extra.map Text.encode).contains name

/-- More excluded names leave out what lies in directories with one of these names. -/
theorem isSource_excludedNames_iff
    (extra : List String) (path : Path) (node : Node) (names : List Name) :
    IsSource files (excludedNames extra) path node names ↔
      IsSource files (excludedNames []) path node names ∧
        ∀ name ∈ names.dropLast, name ∉ extra.map Text.encode := by
  have excludedNames_eq : excludedNames extra = excludedNames [] ++ extra.map Text.encode := by
    simp [excludedNames]
  constructor
  · intro isSource
    have notExcluded := isSource.notExcluded
    simp only [excludedNames_eq, List.mem_append, not_or] at notExcluded
    refine ⟨⟨isSource.visible, isSource.through, ?_, isSource.isFile, isSource.supported⟩, ?_⟩
    · exact fun name member => (notExcluded name member).1
    · exact fun name member => (notExcluded name member).2
  · rintro ⟨isSource, notExtra⟩
    refine ⟨isSource.visible, isSource.through, ?_, isSource.isFile, isSource.supported⟩
    intro name member
    rw [excludedNames_eq, List.mem_append, not_or]
    exact ⟨isSource.notExcluded name member, notExtra name member⟩

private theorem isKept_joins_iff
    (start : Path) (extra : List String) {names : List Name}
    (areEntries : ∀ name ∈ names, IsEntryName name) :
    isKept start extra (start.joins names) = true ↔
      ∀ name ∈ names.dropLast, name ∉ extra.map Text.encode := by
  rw [isKept, foldersBelow_joins start areEntries, List.all_eq_true]
  simp only [Bool.not_eq_true', List.contains_eq_mem, decide_eq_false_iff_not]

theorem isKept_congr
    {extra others : List String} (same : ∀ name, name ∈ others ↔ name ∈ extra)
    (start path : Path) :
    isKept start others path = isKept start extra path := by
  have sameEncoded :
      ∀ name : Name, name ∈ others.map Text.encode ↔ name ∈ extra.map Text.encode := by
    intro name
    simp only [List.mem_map, same]
  simp only [isKept, List.contains_eq_mem, sameEncoded]

/-! ## Passing over directories -/

/-- Passing over the excluded directories leaves out exactly the files below them. -/
theorem sources_search_eq_filter
    (wellFormed : files.root.IsWellFormed)
    {root : Path} {extra : List String} {findings all : List Finding}
    (searched : search files root extra = .ok findings)
    (searchedAll : search files root [] = .ok all) :
    findings.filterMap Finding.source? =
      (all.filterMap Finding.source?).filter
        (isKept (root.absolute files.workingPath) extra) := by
  obtain ⟨nonempty, mode, entries, opened⟩ := exists_opened_of_search searched
  have listedWellFormed := FileSystem.isWellFormed_of_openDirectory wellFormed opened
  obtain ⟨listed, searchedToo, enumerates⟩ :=
    exists_search_enumerates wellFormed nonempty extra opened
  obtain ⟨listedAll, searchedAllToo, enumeratesAll⟩ :=
    exists_search_enumerates wellFormed nonempty [] opened
  rw [searched] at searchedToo
  rw [searchedAll] at searchedAllToo
  obtain rfl : findings = listed := Except.ok.inj searchedToo
  obtain rfl : all = listedAll := Except.ok.inj searchedAllToo
  -- Both sides are in increasing order, so having the same members is enough.
  refine eq_of_increasing (enumeratesAll.increasing.filter _) enumerates.increasing ?_
  intro path
  rw [List.mem_filter, enumerates.exact, enumeratesAll.exact]
  constructor
  · rintro ⟨names, isSource, rfl⟩
    obtain ⟨isSourceAll, notExtra⟩ := (isSource_excludedNames_iff extra _ _ names).mp isSource
    have areEntries := isSourceAll.areEntries listedWellFormed
    exact ⟨⟨names, isSourceAll, rfl⟩, (isKept_joins_iff _ extra areEntries).mpr notExtra⟩
  · rintro ⟨⟨names, isSourceAll, rfl⟩, kept⟩
    have areEntries := isSourceAll.areEntries listedWellFormed
    have notExtra := (isKept_joins_iff _ extra areEntries).mp kept
    exact ⟨names, (isSource_excludedNames_iff extra _ _ names).mpr ⟨isSourceAll, notExtra⟩, rfl⟩

end SourceCritic.SourceFiles
