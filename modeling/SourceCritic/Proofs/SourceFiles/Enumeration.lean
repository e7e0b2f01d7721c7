import SourceCritic.Proofs.FileSystem.Places
import SourceCritic.Proofs.FileSystem.Reordering
import SourceCritic.SourceFiles

/-!
# What the search finds

The search below a directory finds exactly the supported files that can be reached from it through
directories that can be opened and are not passed over.  It finds each of them once, in the order of
the names on the way, whatever the order in which the directories list their entries.

A path is described by the names that lead to it.  `Node.descend` follows them in the tree and
`FileSystem.openDirectory` opens what stands at the joined paths; the search does neither, it only
looks at the modes that it comes upon.  The tree has to be well-formed, as those of file systems
are: no directory has two entries of one name, or an entry with a name that no path can hold.
-/

namespace SourceCritic

namespace SourceFiles

/-! ## Names that lead to a source file -/

/-- Names that lead from an entry to a file that the search has to find.  None of them begins with a
dot.  All but the last one lead to directories that can be opened, the first of which may have any
name and the others one that is not excluded.  The last one leads to a supported file. -/
structure IsSource
    (files : FileSystem) (excluded : List Name) (path : Path) (node : Node)
    (names : List Name) : Prop where
  visible : ∀ name ∈ names, name.head? ≠ some 0x2E
  through :
    ∀ front later, names = front ++ later → later ≠ [] →
      (∃ mode entries, node.descend front = some (.directory mode entries)) ∧
        ∃ listing, files.openDirectory (path.joins front) = .ok listing
  notExcluded : ∀ name ∈ names.dropLast, name ∉ excluded
  isFile : ∃ mode content, node.descend names = some (.file mode content)
  supported : (path.joins names).isSupported = true

variable {files : FileSystem} {excluded : List Name}

theorem isSource_nil_iff (path : Path) (node : Node) :
    IsSource files excluded path node [] ↔
      (∃ mode content, node = .file mode content) ∧ path.isSupported = true := by
  constructor
  · intro isSource
    obtain ⟨mode, content, reached⟩ := isSource.isFile
    exact ⟨⟨mode, content, Option.some.inj reached⟩, isSource.supported⟩
  · rintro ⟨⟨mode, content, rfl⟩, supported⟩
    refine ⟨by simp, ?_, by simp, ⟨mode, content, rfl⟩, supported⟩
    intro front later division nonempty
    exact absurd (List.append_eq_nil_iff.mp division.symm).2 nonempty

private theorem isHidden_eq_false_iff (name : Name) :
    isHidden name = false ↔ name.head? ≠ some 0x2E := by
  rw [isHidden, decide_eq_false_iff_not, Path.dot]

private theorem isPassedOver_eq_false_iff (name : Name) (entry : Node) :
    isPassedOver excluded name entry = false ↔
      name.head? ≠ some 0x2E ∧ (entry.isDirectory = true → name ∉ excluded) := by
  simp [isPassedOver, isHidden_eq_false_iff]

theorem IsSource.tail
    {path : Path} {mode : Mode} {entries : List (Name × Node)} {name : Name} {later : List Name}
    {entry : Node}
    (isSource : IsSource files excluded path (.directory mode entries) (name :: later))
    (found : entries.lookup name = some entry) :
    isPassedOver excluded name entry = false ∧
      IsSource files excluded (path.join name) entry later := by
  have descended := Node.descend_of_lookup found mode
  have dropped : later ≠ [] → (name :: later).dropLast = name :: later.dropLast :=
    List.dropLast_cons_of_ne_nil
  have isFile := isSource.isFile
  simp only [descended] at isFile
  constructor
  · rw [isPassedOver_eq_false_iff]
    refine ⟨isSource.visible name (by simp), fun isDirectory => ?_⟩
    have nonempty : later ≠ [] := by
      rintro rfl
      obtain ⟨_, _, reached⟩ := isFile
      rw [Option.some.inj reached] at isDirectory
      cases isDirectory
    exact isSource.notExcluded name (by rw [dropped nonempty]; simp)
  · refine ⟨?_, ?_, ?_, isFile, isSource.supported⟩
    · exact fun visited member => isSource.visible visited (List.mem_cons_of_mem _ member)
    · intro front rest division nonempty
      have through := isSource.through (name :: front) rest (by rw [division]; rfl) nonempty
      rw [descended] at through
      exact through
    · intro visited member
      have nonempty : later ≠ [] := by
        rintro rfl
        cases member
      refine isSource.notExcluded visited ?_
      rw [dropped nonempty]
      exact List.mem_cons_of_mem _ member

theorem IsSource.cons
    {path : Path} {mode : Mode} {entries : List (Name × Node)} {name : Name} {later : List Name}
    {entry : Node} {listing : Mode × List (Name × Node)}
    (opened : files.openDirectory path = .ok listing)
    (found : entries.lookup name = some entry)
    (notPassed : isPassedOver excluded name entry = false)
    (isSource : IsSource files excluded (path.join name) entry later) :
    IsSource files excluded path (.directory mode entries) (name :: later) := by
  have descended := Node.descend_of_lookup found mode
  rw [isPassedOver_eq_false_iff] at notPassed
  refine ⟨?_, ?_, ?_, ?_, isSource.supported⟩
  · rw [List.forall_mem_cons]
    exact ⟨notPassed.1, isSource.visible⟩
  · intro front rest division nonempty
    cases front with
    | nil => exact ⟨⟨mode, entries, rfl⟩, listing, opened⟩
    | cons first front =>
        rw [List.cons_append] at division
        injection division with sameName sameLater
        rw [← sameName, descended]
        exact isSource.through front rest sameLater nonempty
  · intro visited member
    have nonempty : later ≠ [] := by
      rintro rfl
      cases member
    rw [List.dropLast_cons_of_ne_nil nonempty] at member
    rcases List.mem_cons.mp member with rfl | inLater
    · obtain ⟨⟨_, _, reached⟩, _⟩ := isSource.through [] later rfl nonempty
      refine notPassed.2 ?_
      rw [Option.some.inj reached]
      rfl
    · exact isSource.notExcluded visited inLater
  · simp only [descended]
    exact isSource.isFile

/-- The first name leads to an entry of a directory that can be opened, and the others lead on from
there. -/
theorem isSource_cons_iff
    (path : Path) (mode : Mode) (entries : List (Name × Node)) (name : Name)
    (later : List Name) :
    IsSource files excluded path (.directory mode entries) (name :: later) ↔
      ∃ listing entry,
        files.openDirectory path = .ok listing ∧ entries.lookup name = some entry ∧
          isPassedOver excluded name entry = false ∧
            IsSource files excluded (path.join name) entry later := by
  constructor
  · intro isSource
    obtain ⟨_, listing, opened⟩ := isSource.through [] (name :: later) rfl (by simp)
    obtain ⟨_, _, reached⟩ := isSource.isFile
    rw [Node.descend_directory, Option.bind_eq_some_iff] at reached
    obtain ⟨entry, found, _⟩ := reached
    exact ⟨listing, entry, opened, found, isSource.tail found⟩
  · rintro ⟨listing, entry, opened, found, notPassed, isSource⟩
    exact isSource.cons opened found notPassed

/-! ## The entries of one directory -/

/-- What is found at the entries of a directory, in the order of their names. -/
private def sortedEntries
    (excluded : List Name) (path : Path) (usable : Bool) (entries : List (Name × Node)) :
    List (Name × List Finding) :=
  (visitEntries excluded path usable entries).mergeSort fun first second =>
    precedes first.1 second.1

private theorem visitEntries_eq
    (path : Path) (usable : Bool) (entries : List (Name × Node)) :
    visitEntries excluded path usable entries =
      (entries.filter fun entry => !isPassedOver excluded entry.1 entry.2).map fun entry =>
        (entry.1, visit excluded (path.join entry.1) usable entry.2) := by
  induction entries with
  | nil => rw [visitEntries, List.filter_nil, List.map_nil]
  | cons entry later inductionHypothesis =>
      obtain ⟨name, node⟩ := entry
      rw [visitEntries, inductionHypothesis]
      by_cases passedOver : isPassedOver excluded name node = true
      · rw [if_pos passedOver, List.filter_cons_of_neg (by simpa using passedOver)]
      · rw [if_neg passedOver, List.filter_cons_of_pos (by simpa using passedOver), List.map_cons]

private theorem mem_sortedEntries_iff
    (path : Path) (usable : Bool) (entries : List (Name × Node)) (pair : Name × List Finding) :
    pair ∈ sortedEntries excluded path usable entries ↔
      ∃ entry ∈ entries,
        isPassedOver excluded entry.1 entry.2 = false ∧
          pair = (entry.1, visit excluded (path.join entry.1) usable entry.2) := by
  rw [sortedEntries, List.mem_mergeSort, visitEntries_eq, List.mem_map]
  constructor
  · rintro ⟨entry, member, rfl⟩
    rw [List.mem_filter] at member
    exact ⟨entry, member.1, by simpa using member.2, rfl⟩
  · rintro ⟨entry, member, notPassed, rfl⟩
    exact ⟨entry, List.mem_filter.mpr ⟨member, by simpa using notPassed⟩, rfl⟩

private theorem pairwise_sortedEntries
    (path : Path) (usable : Bool) {entries : List (Name × Node)}
    (distinct : (entries.map (·.1)).Nodup) :
    (sortedEntries excluded path usable entries).Pairwise fun first second =>
      first.1 < second.1 := by
  have sorted :
      (sortedEntries excluded path usable entries).Pairwise fun first second =>
        precedes first.1 second.1 = true := by
    refine List.pairwise_mergeSort ?_ ?_ _
    · intro first second third firstSecond secondThird
      simp only [precedes, decide_eq_true_eq] at *
      exact List.le_trans firstSecond secondThird
    · intro first second
      simp only [precedes, Bool.or_eq_true, decide_eq_true_eq]
      exact List.le_total first.1 second.1
  have sameNames :
      ((sortedEntries excluded path usable entries).map (·.1)).Perm
        ((entries.filter fun entry => !isPassedOver excluded entry.1 entry.2).map (·.1)) := by
    have sameEntries :=
      (List.mergeSort_perm (visitEntries excluded path usable entries) fun first second =>
        precedes first.1 second.1).map (·.1)
    rw [visitEntries_eq, List.map_map] at sameEntries
    rw [sortedEntries, visitEntries_eq]
    exact sameEntries
  have different : ((sortedEntries excluded path usable entries).map (·.1)).Nodup := by
    rw [sameNames.nodup_iff]
    exact distinct.sublist (List.filter_sublist.map _)
  refine sorted.imp₂ ?_ (List.pairwise_map.mp different)
  intro first second before differs
  simp only [precedes, decide_eq_true_eq] at before
  apply Classical.byContradiction
  intro notLess
  exact differs (List.le_antisymm before notLess)

/-! ## The search below an entry -/

/-- An entry that is opened under a path exactly when the search lists it. -/
def Opens (files : FileSystem) (path : Path) (usable : Bool) (node : Node) : Prop :=
  ∀ mode entries, node = .directory mode entries →
    files.openDirectory path =
      if path.bytes.length > FileSystem.pathLimit then
        .error .nameTooLong
      else if usable && mode.read then
        .ok (mode, entries)
      else
        .error .denied

/-- Below a directory that has been opened, the bits of the two directories decide. -/
theorem Opens.of_openDirectory
    {path : Path} {mode : Mode} {entries : List (Name × Node)} {name : Name} {entry : Node}
    (opened : files.openDirectory path = .ok (mode, entries))
    (wellFormed : (Node.directory mode entries).IsWellFormed)
    (member : (name, entry) ∈ entries) :
    Opens files (path.join name) mode.search entry := by
  rintro lowerMode lowerEntries rfl
  cases wellFormed with
  | directory distinct proper _ =>
      exact
        FileSystem.openDirectory_join opened (proper _ member) (lookup_of_mem distinct member)

/-- A directory that can be opened is listed, and below any other one nothing is found. -/
private theorem Opens.visit_directory
    {path : Path} {usable : Bool} {mode : Mode} {entries : List (Name × Node)}
    (opens : Opens files path usable (.directory mode entries)) :
    (files.openDirectory path = .ok (mode, entries) ∧
      visit excluded path usable (.directory mode entries) =
        (sortedEntries excluded path mode.search entries).flatMap (·.2)) ∨
    ((∀ listing, files.openDirectory path ≠ .ok listing) ∧
      (visit excluded path usable (.directory mode entries)).filterMap Finding.source? = []) := by
  have result := opens mode entries rfl
  rw [result, visit]
  split
  · right
    exact ⟨by simp, rfl⟩
  split
  · left
    exact ⟨rfl, rfl⟩
  · right
    exact ⟨by simp, rfl⟩

theorem IsSource.eq_nil
    {path : Path} {node : Node} {names : List Name}
    (isSource : IsSource files excluded path node names)
    (notDirectory : node.isDirectory = false) :
    names = [] := by
  cases names with
  | nil => rfl
  | cons name later =>
      obtain ⟨⟨mode, entries, isDirectory⟩, _⟩ := isSource.through [] (name :: later) rfl (by simp)
      rw [Option.some.inj isDirectory] at notDirectory
      cases notDirectory

/-- Names lead to no file from a directory that cannot be opened, nor from an entry that is neither
a file nor a directory. -/
theorem not_isSource
    {path : Path} {node : Node}
    (notFile : ∀ mode content, node ≠ .file mode content)
    (closed : node.isDirectory = true → ∀ listing, files.openDirectory path ≠ .ok listing)
    (names : List Name) :
    ¬ IsSource files excluded path node names := by
  intro isSource
  cases names with
  | nil =>
      obtain ⟨⟨mode, content, isFile⟩, _⟩ := (isSource_nil_iff path node).mp isSource
      exact notFile mode content isFile
  | cons name later =>
      obtain ⟨⟨mode, entries, isDirectory⟩, listing, opened⟩ :=
        isSource.through [] (name :: later) rfl (by simp)
      rw [Option.some.inj isDirectory] at closed
      exact closed rfl listing opened

private theorem mem_iff_of_not_isSource
    {path : Path} {node : Node} {sources : List Path}
    (nothing : sources = [])
    (unreached : ∀ names, ¬ IsSource files excluded path node names) (found : Path) :
    found ∈ sources ↔
      ∃ names, IsSource files excluded path node names ∧ found = path.joins names := by
  rw [nothing]
  constructor
  · intro member
    cases member
  · rintro ⟨names, isSource, _⟩
    exact (unreached names isSource).elim

/-- The search finds exactly the files that names lead to. -/
theorem mem_visit_iff
    {node : Node} (wellFormed : node.IsWellFormed)
    {path : Path} {usable : Bool} (opens : Opens files path usable node) (found : Path) :
    found ∈ (visit excluded path usable node).filterMap Finding.source? ↔
      ∃ names, IsSource files excluded path node names ∧ found = path.joins names := by
  induction wellFormed generalizing path usable with
  | @file mode content =>
      rw [visit]
      constructor
      · intro member
        split at member
        · rename_i supported
          exact
            ⟨[], (isSource_nil_iff path _).mpr ⟨⟨mode, content, rfl⟩, supported⟩,
              List.mem_singleton.mp member⟩
        · cases member
      · rintro ⟨names, isSource, rfl⟩
        obtain rfl := isSource.eq_nil rfl
        have supported : path.isSupported = true :=
          isSource.supported
        rw [if_pos supported]
        exact List.mem_singleton.mpr rfl
  | @directory mode entries distinct proper below inductionHypothesis =>
      rcases opens.visit_directory with ⟨opened, listed⟩ | ⟨closed, nothing⟩
      · have opensBelow :
            ∀ entry ∈ entries, Opens files (path.join entry.1) mode.search entry.2 :=
          fun entry member =>
            Opens.of_openDirectory opened (.directory distinct proper below) member
        rw [listed, List.filterMap_flatMap, List.mem_flatMap]
        constructor
        · rintro ⟨_, listedPair, member⟩
          obtain ⟨entry, inEntries, notPassed, rfl⟩ :=
            (mem_sortedEntries_iff path mode.search entries _).mp listedPair
          obtain ⟨names, isSource, rfl⟩ :=
            (inductionHypothesis entry inEntries (opensBelow entry inEntries)).mp member
          exact
            ⟨entry.1 :: names,
              isSource.cons opened (lookup_of_mem distinct inEntries) notPassed, rfl⟩
        · rintro ⟨names, isSource, rfl⟩
          cases names with
          | nil =>
              obtain ⟨⟨_, _, impossible⟩, _⟩ := (isSource_nil_iff path _).mp isSource
              cases impossible
          | cons name later =>
              obtain ⟨_, entry, _, isEntry, notPassed, isSourceBelow⟩ :=
                (isSource_cons_iff path mode entries name later).mp isSource
              have inEntries := mem_of_lookup isEntry
              refine
                ⟨(name, visit excluded (path.join name) mode.search entry),
                  (mem_sortedEntries_iff path mode.search entries _).mpr
                    ⟨(name, entry), inEntries, notPassed, rfl⟩, ?_⟩
              exact
                (inductionHypothesis (name, entry) inEntries
                  (opensBelow (name, entry) inEntries)).mpr
                  ⟨later, isSourceBelow, rfl⟩
      · exact mem_iff_of_not_isSource nothing (not_isSource (by simp) fun _ => closed) found
  | link =>
      exact
        mem_iff_of_not_isSource (by simp [visit])
          (not_isSource (by simp) (by simp [Node.isDirectory])) found
  | pipe =>
      exact
        mem_iff_of_not_isSource (by simp [visit])
          (not_isSource (by simp) (by simp [Node.isDirectory])) found
  | device =>
      exact
        mem_iff_of_not_isSource (by simp [visit])
          (not_isSource (by simp) (by simp [Node.isDirectory])) found

/-! ## The order of the search -/

theorem IsSource.areEntries
    {path : Path} {node : Node} {names : List Name}
    (isSource : IsSource files excluded path node names) (wellFormed : node.IsWellFormed) :
    ∀ name ∈ names, IsEntryName name := by
  induction names generalizing path node with
  | nil => exact List.forall_mem_nil _
  | cons name later inductionHypothesis =>
      cases wellFormed with
      | directory distinct proper below =>
          obtain ⟨_, entry, _, isEntry, _, isSourceBelow⟩ :=
            (isSource_cons_iff path _ _ name later).mp isSource
          have inEntries := mem_of_lookup isEntry
          rw [List.forall_mem_cons]
          exact ⟨proper _ inEntries, inductionHypothesis isSourceBelow (below _ inEntries)⟩
      | file => cases isSource.eq_nil rfl
      | link => cases isSource.eq_nil rfl
      | pipe => cases isSource.eq_nil rfl
      | device => cases isSource.eq_nil rfl

/-- Whatever is found at an entry has its name behind the names of the directory. -/
private theorem exists_names_of_mem_sortedEntries
    {path : Path} {mode : Mode} {entries : List (Name × Node)} {pair : Name × List Finding}
    {found : Path}
    (opened : files.openDirectory path = .ok (mode, entries))
    (wellFormed : (Node.directory mode entries).IsWellFormed)
    (listed : pair ∈ sortedEntries excluded path mode.search entries)
    (member : found ∈ pair.2.filterMap Finding.source?) :
    ∃ later, found.names = path.names ++ pair.1 :: later := by
  obtain ⟨entry, inEntries, notPassed, rfl⟩ :=
    (mem_sortedEntries_iff path mode.search entries pair).mp listed
  have opens := Opens.of_openDirectory opened wellFormed inEntries
  cases wellFormed with
  | directory distinct proper below =>
      obtain ⟨names, isSource, rfl⟩ := (mem_visit_iff (below _ inEntries) opens found).mp member
      have areEntries := isSource.areEntries (below _ inEntries)
      refine ⟨names, ?_⟩
      rw [Path.names_joins _ areEntries, Path.names_join _ (proper _ inEntries),
        List.append_assoc, List.singleton_append]

/-- The search finds files in the order of the names that lead to them. -/
theorem pairwise_visit
    (excluded : List Name) {node : Node} (wellFormed : node.IsWellFormed)
    {path : Path} {usable : Bool} (opens : Opens files path usable node) :
    ((visit excluded path usable node).filterMap Finding.source?).Pairwise
      fun first second => first.names < second.names := by
  induction wellFormed generalizing path usable with
  | file =>
      rw [visit]
      split
      · exact List.pairwise_singleton _ _
      · exact List.Pairwise.nil
  | @directory mode entries distinct proper below inductionHypothesis =>
      have wellFormed : (Node.directory mode entries).IsWellFormed :=
        .directory distinct proper below
      rcases opens.visit_directory with ⟨opened, listed⟩ | ⟨_, nothing⟩
      · rw [listed, List.filterMap_flatMap, List.pairwise_flatMap]
        constructor
        · intro pair member
          obtain ⟨entry, inEntries, _, rfl⟩ :=
            (mem_sortedEntries_iff path mode.search entries pair).mp member
          exact
            inductionHypothesis entry inEntries
              (Opens.of_openDirectory opened wellFormed inEntries)
        · refine (pairwise_sortedEntries path mode.search distinct).imp_of_mem ?_
          intro firstPair secondPair firstListed secondListed less first inFirst second inSecond
          obtain ⟨firstLater, firstNames⟩ :=
            exists_names_of_mem_sortedEntries opened wellFormed firstListed inFirst
          obtain ⟨secondLater, secondNames⟩ :=
            exists_names_of_mem_sortedEntries opened wellFormed secondListed inSecond
          rw [firstNames, secondNames]
          exact List.append_left_lt (List.cons_lt_cons_iff.mpr (Or.inl less))
      · rw [nothing]
        exact List.Pairwise.nil
  | link => simp [visit]
  | pipe => simp [visit]
  | device => simp [visit]

/-! ## The order of directory entries -/

private theorem descend_of_reordered
    {node other reached : Node} {names : List Name}
    (same : node.Reordered other) (descended : node.descend names = some reached) :
    ∃ otherReached,
      other.descend names = some otherReached ∧ reached.Reordered otherReached := by
  induction names generalizing node other with
  | nil =>
      obtain rfl := Option.some.inj descended
      exact ⟨other, rfl, same⟩
  | cons name later inductionHypothesis =>
      cases same with
      | directory sameNames sameEntries =>
          rw [Node.descend_directory, Option.bind_eq_some_iff] at descended
          obtain ⟨entry, found, descendedBelow⟩ := descended
          obtain ⟨otherEntry, otherFound⟩ := Node.lookup_of_perm sameNames found
          rw [Node.descend_of_lookup otherFound]
          exact
            inductionHypothesis (sameEntries name entry otherEntry found otherFound)
              descendedBelow
      | file => cases descended
      | link => cases descended
      | pipe => cases descended
      | device => cases descended

/-- The order in which directories list their entries does not matter. -/
theorem IsSource.of_reordered
    {other : FileSystem} {path : Path} {node otherNode : Node} {names : List Name}
    (same : files.Reordered other) (sameNode : node.Reordered otherNode)
    (isSource : IsSource files excluded path node names) :
    IsSource other excluded path otherNode names := by
  refine ⟨isSource.visible, ?_, isSource.notExcluded, ?_, isSource.supported⟩
  · intro front later division nonempty
    obtain ⟨⟨mode, entries, descended⟩, listing, opened⟩ :=
      isSource.through front later division nonempty
    obtain ⟨reached, otherDescended, sameReached⟩ := descend_of_reordered sameNode descended
    obtain ⟨others, otherOpened, _⟩ := same.openDirectory opened
    cases sameReached with
    | directory _ _ => exact ⟨⟨mode, _, otherDescended⟩, _, otherOpened⟩
  · obtain ⟨mode, content, descended⟩ := isSource.isFile
    obtain ⟨reached, otherDescended, sameReached⟩ := descend_of_reordered sameNode descended
    cases sameReached with
    | file => exact ⟨mode, content, otherDescended⟩

/-! ## A small file system -/

/-- A name in ASCII characters. -/
def asciiName (text : String) : Name :=
  text.toList.map fun character => character.toNat.toUInt8

/-- A file, a link to it and a directory with a file, not in the order of their names. -/
def smallEntries : List (Name × Node) :=
  [(asciiName "a.js", .file .newFile .empty),
    (asciiName "link.js", .link ⟨asciiName "a.js"⟩),
    (asciiName "a", .directory .newDirectory [(asciiName "x.js", .file .newFile .empty)])]

/-- A file system with these entries in its only directory. -/
def smallFiles : FileSystem where
  root := .directory .newDirectory [(asciiName "work", .directory .newDirectory smallEntries)]
  workingDirectory := []

theorem isWellFormed_smallFiles : smallFiles.root.IsWellFormed := by
  have lower :
      (Node.directory .newDirectory
        [(asciiName "x.js", .file .newFile .empty)]).IsWellFormed :=
    .directory (by decide) (by decide) (by simpa using .file)
  refine .directory (by decide) (by decide) ?_
  rw [List.forall_mem_singleton]
  refine .directory (by decide) (by decide) ?_
  rw [smallEntries, List.forall_mem_cons, List.forall_mem_cons, List.forall_mem_singleton]
  exact ⟨.file, .link, lower⟩

theorem openDirectory_smallFiles :
    smallFiles.openDirectory ⟨asciiName "/work"⟩ = .ok (.newDirectory, smallEntries) := by
  have followsLast : FileSystem.Manner.opening.followsLast = true :=
    rfl
  have parts : (⟨asciiName "/work"⟩ : Path).parts = [[], asciiName "work"] := by
    decide
  rw [FileSystem.openDirectory_eq_ok_iff]
  refine ⟨[(asciiName "work", .directory .newDirectory smallEntries)], ?_, rfl, rfl⟩
  rw [FileSystem.trail_eq_ok_iff]
  refine ⟨by decide, by decide, by decide, ?_⟩
  rw [parts, FileSystem.follow_cons followsLast]
  change FileSystem.follow _ _ _ [] [asciiName "work"] = _
  rw [FileSystem.follow_cons followsLast]
  change FileSystem.follow _ _ _ [_] [] = _
  rw [FileSystem.follow]

/-! ## The search as a whole -/

/-- A list of the source files below a directory: each of them once, in the order of the names that
lead to them. -/
structure Enumerates
    (files : FileSystem) (excluded : List Name) (start : Path) (listed : Node)
    (sources : List Path) : Prop where
  exact :
    ∀ path, path ∈ sources ↔
      ∃ names, IsSource files excluded start listed names ∧ path = start.joins names
  once : sources.Nodup
  increasing : sources.Pairwise fun first second => first.names < second.names

/-- Two increasing lists of the same paths are the same list. -/
theorem eq_of_increasing
    {sources otherSources : List Path}
    (increasing : sources.Pairwise fun first second => first.names < second.names)
    (otherIncreasing : otherSources.Pairwise fun first second => first.names < second.names)
    (sameMembers : ∀ path, path ∈ otherSources ↔ path ∈ sources) :
    otherSources = sources := by
  have distinct :
      ∀ {listed : List Path},
        (listed.Pairwise fun first second => first.names < second.names) → listed.Nodup := by
    intro listed ordered
    refine ordered.imp ?_
    rintro first second less rfl
    exact List.lt_irrefl _ less
  have permuted : otherSources.Perm sources :=
    (List.perm_ext_iff_of_nodup (distinct otherIncreasing) (distinct increasing)).mpr sameMembers
  refine permuted.eq_of_pairwise ?_ otherIncreasing increasing
  intro first second _ _ less greater
  exact absurd greater (List.lt_asymm less)

/-- There is only one such list, in whatever order directories list their entries. -/
theorem Enumerates.unique
    {other : FileSystem} {start : Path} {listed otherListed : Node}
    {sources otherSources : List Path}
    (same : files.Reordered other) (sameListed : listed.Reordered otherListed)
    (enumerates : Enumerates files excluded start listed sources)
    (otherEnumerates : Enumerates other excluded start otherListed otherSources) :
    otherSources = sources := by
  refine eq_of_increasing enumerates.increasing otherEnumerates.increasing ?_
  intro path
  rw [enumerates.exact, otherEnumerates.exact]
  constructor
  · rintro ⟨names, isSource, shape⟩
    exact ⟨names, isSource.of_reordered same.symm sameListed.symm, shape⟩
  · rintro ⟨names, isSource, shape⟩
    exact ⟨names, isSource.of_reordered same sameListed, shape⟩

theorem Opens.of_opened
    {path : Path} {mode : Mode} {entries : List (Name × Node)}
    (opened : files.openDirectory path = .ok (mode, entries)) :
    Opens files path true (.directory mode entries) := by
  obtain ⟨_, trailed, _, readable⟩ := (FileSystem.openDirectory_eq_ok_iff _ _ _ _).mp opened
  obtain ⟨_, _, short, _⟩ := (FileSystem.trail_eq_ok_iff _ _ _).mp trailed
  rintro _ _ same
  cases same
  rw [opened, if_neg (Nat.not_lt.mpr short), readable]
  rfl

/-- A search below a directory that can be opened succeeds and enumerates its sources. -/
theorem exists_search_enumerates
    (wellFormed : files.root.IsWellFormed)
    {root : Path} (nonempty : root.bytes ≠ []) (extra : List String)
    {mode : Mode} {entries : List (Name × Node)}
    (opened : files.openDirectory (root.absolute files.workingPath) = .ok (mode, entries)) :
    ∃ findings,
      search files root extra = .ok findings ∧
        Enumerates files (excludedNames extra) (root.absolute files.workingPath)
          (.directory mode entries) (findings.filterMap Finding.source?) := by
  have listedWellFormed := FileSystem.isWellFormed_of_openDirectory wellFormed opened
  have opens := Opens.of_opened opened
  have increasing := pairwise_visit (excludedNames extra) listedWellFormed opens
  refine
    ⟨visit (excludedNames extra) (root.absolute files.workingPath) true (.directory mode entries),
      ?_, ?_, ?_, increasing⟩
  · rw [search, if_neg (by simpa using nonempty)]
    simp only [opened]
  · exact mem_visit_iff listedWellFormed opens
  · refine increasing.imp ?_
    rintro first second less rfl
    exact List.lt_irrefl _ less

/-- Below a directory that can be opened, the search succeeds and finds exactly the source files:
each of them once and in increasing order, whatever the order in which directories list their
entries. -/
theorem search_enumerates_sources
    (wellFormed : files.root.IsWellFormed)
    {root : Path} (nonempty : root.bytes ≠ []) (extra : List String)
    {mode : Mode} {entries : List (Name × Node)}
    (opened : files.openDirectory (root.absolute files.workingPath) = .ok (mode, entries)) :
    ∃ findings,
      search files root extra = .ok findings ∧
        Enumerates files ((["node_modules", "dist", ".git"] ++ extra).map Text.encode)
          (root.absolute files.workingPath) (.directory mode entries)
          (findings.filterMap Finding.source?) ∧
        ∀ other, files.Reordered other →
          ∃ otherFindings,
            search other root extra = .ok otherFindings ∧
              otherFindings.filterMap Finding.source? =
                findings.filterMap Finding.source? := by
  obtain ⟨findings, searched, enumerates⟩ :=
    exists_search_enumerates wellFormed nonempty extra opened
  refine ⟨findings, searched, enumerates, ?_⟩
  intro other same
  have samePath : other.workingPath = files.workingPath := by
    rw [FileSystem.workingPath, FileSystem.workingPath, same.workingDirectory]
  obtain ⟨others, otherOpened, sameListed⟩ := same.openDirectory opened
  rw [← samePath] at otherOpened
  obtain ⟨otherFindings, otherSearched, otherEnumerates⟩ :=
    exists_search_enumerates (same.tree.isWellFormed wellFormed) nonempty extra otherOpened
  rw [samePath] at otherEnumerates
  exact ⟨otherFindings, otherSearched, enumerates.unique same sameListed otherEnumerates⟩

theorem search_enumerates_sources_small :
    smallFiles.root.IsWellFormed ∧
      smallFiles.openDirectory ⟨asciiName "/work"⟩ = .ok (.newDirectory, smallEntries) ∧
        ∃ findings,
          search smallFiles ⟨asciiName "/work"⟩ [] = .ok findings ∧
            Enumerates smallFiles (["node_modules", "dist", ".git"].map Text.encode)
              ⟨asciiName "/work"⟩ (.directory .newDirectory smallEntries)
              (findings.filterMap Finding.source?) := by
  have start :
      (⟨asciiName "/work"⟩ : Path).absolute smallFiles.workingPath = ⟨asciiName "/work"⟩ := by
    decide
  have opened := openDirectory_smallFiles
  rw [← start] at opened
  obtain ⟨findings, searched, enumerates, _⟩ :=
    search_enumerates_sources isWellFormed_smallFiles (by decide) [] opened
  rw [start] at enumerates
  exact
    ⟨isWellFormed_smallFiles, openDirectory_smallFiles, findings, searched, enumerates⟩

end SourceFiles

end SourceCritic
