import SourceCritic.Proofs.FileSystem.Paths

/-!
# Following paths step by step

What becomes of the next name of a path is decided by the directory that has been reached: the name
is refused, or is missing, or leads to another entry, or names a link.  Everything about following
a path is derived from this one step.

The main results are about the entries of a directory that a path leads to.  One that is no link is
reached if its path is not too long and the directory may be searched; a directory among them can be
opened if it may be read as well.
-/

namespace SourceCritic

/-! ## Well-formed trees -/

/-- Every directory of a tree has proper names for its entries, and no name twice. -/
inductive Node.IsWellFormed : Node → Prop where
  | file {mode : Mode} {content : ByteArray} : IsWellFormed (.file mode content)
  | directory {mode : Mode} {entries : List (Name × Node)} :
      (entries.map (·.1)).Nodup →
      (∀ entry ∈ entries, IsEntryName entry.1) →
      (∀ entry ∈ entries, IsWellFormed entry.2) →
      IsWellFormed (.directory mode entries)
  | link {target : Path} : IsWellFormed (.link target)
  | pipe {mode : Mode} : IsWellFormed (.pipe mode)
  | device {mode : Mode} : IsWellFormed (.device mode)

theorem mem_of_lookup
    {entries : List (Name × Node)} {name : Name} {node : Node}
    (found : entries.lookup name = some node) :
    (name, node) ∈ entries := by
  obtain ⟨before, after, rfl, _⟩ := List.lookup_eq_some_iff.mp found
  simp

theorem lookup_of_mem
    {entries : List (Name × Node)} (distinct : (entries.map (·.1)).Nodup)
    {name : Name} {node : Node} (member : (name, node) ∈ entries) :
    entries.lookup name = some node := by
  obtain ⟨before, after, rfl⟩ := List.append_of_mem member
  rw [List.lookup_eq_some_iff]
  refine ⟨before, after, rfl, ?_⟩
  intro entry earlier
  rw [List.map_append, List.nodup_append] at distinct
  have different := distinct.2.2 entry.1 (List.mem_map_of_mem earlier) name (by simp)
  simpa using different.symm

namespace FileSystem

/-! ## One step -/

/-- What becomes of a name. -/
inductive Turn where
  | refused (error : FileError)
  | missing
  | followed (passed : List (Name × Node))
  | linked (target : Path)

/-- What becomes of a name where a trail has led to. -/
def turn (root : Node) (manner : Manner) (passed : List (Name × Node)) (name : Name) : Turn :=
  match Trail.node root passed with
  | .directory mode entries =>
      if name.isEmpty then
        .followed passed
      else if manner.checked && !mode.search then
        .refused .denied
      else if name = Path.here then
        .followed passed
      else if name = Path.above then
        .followed passed.tail
      else if name.length > nameLimit then
        .refused .nameTooLong
      else
        match entries.lookup name with
        | none => .missing
        | some (.link target) => .linked target
        | some node => .followed ((name, node) :: passed)
  | _ => .refused .notDirectory

variable {root : Node} {manner : Manner}

/-- A path is followed step by step, up to the last name. -/
theorem follow_cons
    (followsLast : manner.followsLast = true)
    (links : Nat) (passed : List (Name × Node)) (name : Name) (rest : List Name) :
    follow root manner links passed (name :: rest) =
      match turn root manner passed name with
      | .refused error => .error error
      | .missing => .ok { passed := passed, missing := name :: rest }
      | .followed further => follow root manner links further rest
      | .linked target =>
          match links with
          | 0 => .error .tooManyLinks
          | fewer + 1 =>
              follow root manner fewer (if target.isAbsolute then [] else passed)
                (target.parts ++ rest) := by
  rw [follow, turn]
  cases reached : Trail.node root passed with
  | directory mode entries =>
      simp only [followsLast, Bool.not_true, Bool.and_false, Bool.false_eq_true, if_false]
      split
      · rfl
      split
      · rfl
      split
      · rfl
      split
      · rfl
      split
      · rfl
      cases entries.lookup name with
      | none => rfl
      | some node =>
          cases node with
          | link target => cases links <;> rfl
          | _ => rfl
  | _ => rfl

/-- Every step passes a name or meets a link. -/
theorem follow_induction
    {motive : Nat → List Name → Prop}
    (nil : ∀ links, motive links [])
    (cons :
      ∀ links name rest,
        motive links rest → (∀ fewer names, fewer < links → motive fewer names) →
          motive links (name :: rest))
    (links : Nat) (names : List Name) :
    motive links names := by
  induction links using Nat.strongRecOn generalizing names with
  | ind links fewerLinks =>
      induction names with
      | nil => exact nil links
      | cons name rest inductionHypothesis =>
          exact
            cons links name rest inductionHypothesis fun fewer names less =>
              fewerLinks fewer less names

/-! ## Names in a row -/

/-- Where the first names have led to, the others are followed from there. -/
private theorem exists_follow_append
    (followsLast : manner.followsLast = true)
    {links : Nat} {passed : List (Name × Node)} {names more : List Name}
    {destination : List (Name × Node)}
    (reached :
      follow root manner links passed (names ++ more) =
        .ok { passed := destination, missing := [] }) :
    ∃ left middle, ∀ rest,
      follow root manner links passed (names ++ rest) = follow root manner left middle rest := by
  induction links, names using follow_induction generalizing passed with
  | nil links => exact ⟨links, passed, fun rest => rfl⟩
  | cons links name later inductionHypothesis fewerLinks =>
      rw [List.cons_append, follow_cons followsLast] at reached
      simp only [List.cons_append, follow_cons followsLast]
      cases turned : turn root manner passed name with
      | refused error =>
          rw [turned] at reached
          cases reached
      | missing =>
          rw [turned] at reached
          cases reached
      | followed further =>
          rw [turned] at reached
          exact inductionHypothesis reached
      | linked target =>
          rw [turned] at reached
          cases links with
          | zero => cases reached
          | succ fewer =>
              simp only [← List.append_assoc] at reached ⊢
              exact fewerLinks fewer _ (Nat.lt_succ_self fewer) reached

private theorem follow_nil_inj
    {links : Nat} {passed destination : List (Name × Node)}
    (reached : follow root manner links passed [] = .ok { passed := destination, missing := [] }) :
    passed = destination := by
  rw [follow] at reached
  injection reached with sameTrail
  injection sameTrail

private theorem turn_empty (root : Node) (manner : Manner) (passed : List (Name × Node)) :
    turn root manner passed [] = .followed passed ∨
      turn root manner passed [] = .refused .notDirectory := by
  rw [turn]
  cases Trail.node root passed with
  | directory mode entries => exact Or.inl rfl
  | _ => exact Or.inr rfl

/-- A name that is joined to a path is followed from where the path leads to. -/
theorem exists_follow_join
    (followsLast : manner.followsLast = true)
    {links : Nat} {passed destination : List (Name × Node)} {path : Path} {name : Name}
    (isEntry : IsEntryName name)
    (reached :
      follow root manner links passed path.parts = .ok { passed := destination, missing := [] }) :
    ∃ left,
      follow root manner links passed (path.join name).parts =
        follow root manner left destination [name] := by
  rcases path.parts_join isEntry.noSlash with shape | ⟨front, pathShape, shape⟩
  · rw [← List.append_nil path.parts] at reached
    obtain ⟨left, middle, onward⟩ := exists_follow_append followsLast reached
    rw [onward] at reached
    rw [shape, onward, follow_nil_inj reached]
    exact ⟨left, rfl⟩
  · rw [pathShape] at reached
    obtain ⟨left, middle, onward⟩ := exists_follow_append followsLast reached
    rw [onward, follow_cons followsLast] at reached
    -- The empty part behind the last slash leads nowhere else.
    rcases turn_empty root manner middle with stays | refused
    · rw [stays] at reached
      rw [shape, onward, follow_nil_inj reached]
      exact ⟨left, rfl⟩
    · rw [refused] at reached
      cases reached

/-! ## Directories below directories -/

/-- Where a path is followed from. -/
def origin (files : FileSystem) (path : Path) : List (Name × Node) :=
  if path.isAbsolute then [] else files.workingTrail

/-- A path is followed if it is neither empty nor too long and has no zero byte. -/
theorem trail_eq_ok_iff (files : FileSystem) (path : Path) (trail : Trail) :
    files.trail manner path = .ok trail ↔
      0 ∉ path.bytes ∧ path.bytes ≠ [] ∧ path.bytes.length ≤ pathLimit ∧
        follow files.root manner linkLimit (files.origin path) path.parts = .ok trail := by
  rw [FileSystem.trail, ← origin]
  split
  · rename_i hasNul
    simp only [List.contains_iff_mem] at hasNul
    simp [hasNul]
  · rename_i noNul
    simp only [List.contains_iff_mem] at noNul
    split
    · rename_i isEmpty
      simp only [List.isEmpty_iff] at isEmpty
      simp [isEmpty]
    · rename_i nonempty
      simp only [List.isEmpty_iff] at nonempty
      split
      · rename_i long
        simp [Nat.not_le.mpr long]
      · rename_i short
        simp [noNul, nonempty, Nat.not_lt.mp short]

/-- How a path is followed to what it leads to. -/
abbrev Manner.opening : Manner where
  checked := true
  followsLast := true

theorem lookup_eq_ok_iff (files : FileSystem) (path : Path) (node : Node) :
    files.lookup path = .ok node ↔
      ∃ destination,
        files.trail .opening path = .ok { passed := destination, missing := [] } ∧
          Trail.node files.root destination = node := by
  rw [lookup]
  cases files.trail .opening path with
  | error error => simp
  | ok trail =>
      obtain ⟨passed, missing⟩ := trail
      cases missing with
      | nil => simp
      | cons name rest => simp

theorem nonempty_of_lookup
    {files : FileSystem} {path : Path} {node : Node} (reached : files.lookup path = .ok node) :
    path.bytes ≠ [] := by
  obtain ⟨_, trailed, _⟩ := (lookup_eq_ok_iff _ _ _).mp reached
  obtain ⟨_, nonempty, _⟩ := (trail_eq_ok_iff _ _ _).mp trailed
  exact nonempty

/-- A directory is opened where a path leads to one that may be read. -/
theorem openDirectory_eq_ok_iff_lookup
    (files : FileSystem) (path : Path) (mode : Mode) (entries : List (Name × Node)) :
    files.openDirectory path = .ok (mode, entries) ↔
      files.lookup path = .ok (.directory mode entries) ∧ mode.read = true := by
  rw [openDirectory]
  cases files.lookup path with
  | error error => simp
  | ok node =>
      cases node with
      | directory found listed =>
          by_cases readable : found.read = true
          · simp only [readable, if_true, Except.ok.injEq, Prod.mk.injEq, Node.directory.injEq]
            constructor
            · rintro ⟨rfl, rfl⟩
              exact ⟨⟨rfl, rfl⟩, readable⟩
            · exact And.left
          · simp only [readable, Except.ok.injEq, Node.directory.injEq]
            constructor
            · intro impossible
              cases impossible
            · rintro ⟨⟨rfl, _⟩, readableToo⟩
              exact absurd readableToo readable
      | _ => simp

theorem openDirectory_eq_ok_iff
    (files : FileSystem) (path : Path) (mode : Mode) (entries : List (Name × Node)) :
    files.openDirectory path = .ok (mode, entries) ↔
      ∃ destination,
        files.trail .opening path = .ok { passed := destination, missing := [] } ∧
          Trail.node files.root destination = .directory mode entries ∧ mode.read = true := by
  rw [openDirectory_eq_ok_iff_lookup, lookup_eq_ok_iff]
  constructor
  · rintro ⟨⟨destination, trailed, reached⟩, readable⟩
    exact ⟨destination, trailed, reached, readable⟩
  · rintro ⟨destination, trailed, reached, readable⟩
    exact ⟨⟨destination, trailed, reached⟩, readable⟩

/-- An entry of a directory that a path leads to is reached too, unless it is a link, if its path
is not too long and the directory may be searched. -/
theorem lookup_join
    {files : FileSystem} {path : Path} {mode : Mode} {entries : List (Name × Node)}
    {name : Name} {entry : Node}
    (reached : files.lookup path = .ok (.directory mode entries))
    (isEntry : IsEntryName name)
    (found : entries.lookup name = some entry)
    (notLink : ∀ target, entry ≠ .link target) :
    files.lookup (path.join name) =
      if (path.join name).bytes.length > pathLimit then
        .error .nameTooLong
      else if mode.search then
        .ok entry
      else
        .error .denied := by
  obtain ⟨destination, trailed, atDirectory⟩ := (lookup_eq_ok_iff _ _ _).mp reached
  obtain ⟨noNul, nonempty, _, followed⟩ := (trail_eq_ok_iff _ _ _).mp trailed
  obtain ⟨left, onward⟩ := exists_follow_join rfl isEntry followed
  have sameOrigin : files.origin (path.join name) = files.origin path := by
    rw [origin, origin, Path.isAbsolute_join nonempty]
  have turned :
      turn files.root .opening destination name =
        if mode.search then .followed ((name, entry) :: destination) else .refused .denied := by
    have notEmpty : ¬ name.isEmpty = true := by
      simpa using isEntry.nonempty
    have notLong : ¬ name.length > nameLimit :=
      Nat.not_lt.mpr isEntry.short
    rw [turn, atDirectory]
    simp only [notEmpty, if_false, Bool.true_and, isEntry.notHere, isEntry.notAbove, notLong, found]
    cases entry with
    | link target => exact absurd rfl (notLink target)
    | _ => cases mode.search <;> rfl
  rw [lookup, FileSystem.trail, ← origin, sameOrigin, onward, follow_cons rfl, turned]
  rw [if_neg (by simpa using Path.nul_not_mem_join noNul isEntry),
    if_neg (by simpa using Path.bytes_join_ne_nil nonempty name)]
  by_cases long : (path.join name).bytes.length > pathLimit
  · rw [if_pos long, if_pos long]
  · rw [if_neg long, if_neg long]
    cases mode.search with
    | false => rfl
    | true => simp [follow, Trail.node]

/-- A directory below a directory that has been opened can be opened too if its path is not too
long, the upper directory may be searched and the lower one may be read. -/
theorem openDirectory_join
    {files : FileSystem} {path : Path} {mode lowerMode : Mode}
    {entries lowerEntries : List (Name × Node)} {name : Name}
    (opened : files.openDirectory path = .ok (mode, entries))
    (isEntry : IsEntryName name)
    (found : entries.lookup name = some (.directory lowerMode lowerEntries)) :
    files.openDirectory (path.join name) =
      if (path.join name).bytes.length > pathLimit then
        .error .nameTooLong
      else if mode.search && lowerMode.read then
        .ok (lowerMode, lowerEntries)
      else
        .error .denied := by
  have reached := ((openDirectory_eq_ok_iff_lookup _ _ _ _).mp opened).1
  rw [openDirectory, lookup_join reached isEntry found (by simp)]
  by_cases long : (path.join name).bytes.length > pathLimit
  · rw [if_pos long, if_pos long]
  · rw [if_neg long, if_neg long]
    cases mode.search with
    | false => rfl
    | true => simp

/-! ## Well-formed directories -/

/-- All entries on the way are well-formed. -/
def AreWellFormed (passed : List (Name × Node)) : Prop :=
  ∀ entry ∈ passed, entry.2.IsWellFormed

theorem AreWellFormed.node
    {passed : List (Name × Node)} (wellFormed : AreWellFormed passed)
    (rootWellFormed : root.IsWellFormed) :
    (Trail.node root passed).IsWellFormed := by
  cases passed with
  | nil => exact rootWellFormed
  | cons entry later => exact wellFormed entry (by simp)

private theorem AreWellFormed.of_turn
    {passed further : List (Name × Node)} {name : Name}
    (wellFormed : AreWellFormed passed)
    (rootWellFormed : root.IsWellFormed)
    (turned : turn root manner passed name = .followed further) :
    AreWellFormed further := by
  have here := wellFormed.node rootWellFormed
  rw [turn] at turned
  cases reached : Trail.node root passed with
  | directory mode entries =>
      rw [reached] at turned here
      simp only at turned
      split at turned
      · cases turned
        exact wellFormed
      split at turned
      · cases turned
      split at turned
      · cases turned
        exact wellFormed
      split at turned
      · cases turned
        exact fun entry member => wellFormed entry (List.mem_of_mem_tail member)
      split at turned
      · cases turned
      split at turned
      · cases turned
      · cases turned
      · rename_i node _ found
        cases turned
        cases here with
        | directory _ _ below =>
            rw [AreWellFormed, List.forall_mem_cons]
            exact ⟨below _ (mem_of_lookup found), wellFormed⟩
  | _ =>
      rw [reached] at turned
      cases turned

/-- Following names keeps to the tree, so all entries on the way stay well-formed. -/
theorem AreWellFormed.of_follow
    (followsLast : manner.followsLast = true)
    (rootWellFormed : root.IsWellFormed)
    {links : Nat} {passed : List (Name × Node)} {names : List Name} {trail : Trail}
    (wellFormed : AreWellFormed passed)
    (reached : follow root manner links passed names = .ok trail) :
    AreWellFormed trail.passed := by
  induction links, names using follow_induction generalizing passed with
  | nil links =>
      rw [follow] at reached
      cases reached
      exact wellFormed
  | cons links name rest inductionHypothesis fewerLinks =>
      rw [follow_cons followsLast] at reached
      cases turned : turn root manner passed name with
      | refused error =>
          rw [turned] at reached
          cases reached
      | missing =>
          rw [turned] at reached
          cases reached
          exact wellFormed
      | followed further =>
          rw [turned] at reached
          exact inductionHypothesis (wellFormed.of_turn rootWellFormed turned) reached
      | linked target =>
          rw [turned] at reached
          cases links with
          | zero => cases reached
          | succ fewer =>
              refine fewerLinks fewer _ (Nat.lt_succ_self fewer) ?_ reached
              split
              · exact List.forall_mem_nil _
              · exact wellFormed

private theorem areWellFormed_origin
    {files : FileSystem} (wellFormed : files.root.IsWellFormed) (path : Path) :
    AreWellFormed (files.origin path) := by
  have nothing : AreWellFormed [] :=
    List.forall_mem_nil _
  rw [origin, workingTrail]
  split
  · exact nothing
  · split
    · rename_i reached
      exact nothing.of_follow rfl wellFormed reached
    · exact nothing

/-- What is below a directory of a well-formed tree is well-formed again. -/
theorem isWellFormed_of_openDirectory
    {files : FileSystem} (wellFormed : files.root.IsWellFormed)
    {path : Path} {mode : Mode} {entries : List (Name × Node)}
    (opened : files.openDirectory path = .ok (mode, entries)) :
    (Node.directory mode entries).IsWellFormed := by
  obtain ⟨destination, trailed, reached, _⟩ := (openDirectory_eq_ok_iff _ _ _ _).mp opened
  obtain ⟨_, _, _, followed⟩ := (trail_eq_ok_iff _ _ _).mp trailed
  rw [← reached]
  exact ((areWellFormed_origin wellFormed path).of_follow rfl wellFormed followed).node wellFormed

end FileSystem

end SourceCritic
