import Mathlib.Data.List.Forall2
import SourceCritic.Proofs.FileSystem.Following

/-!
# The order of directory entries

Two file systems may differ in the order in which their directories list their entries.  Paths lead
to corresponding entries in both of them: an entry is looked up by its name, and no other use is
made of a directory on the way.
-/

namespace SourceCritic

namespace Node

/-- Two trees that differ at most in the order in which directories list their entries. -/
inductive Reordered : Node → Node → Prop where
  | file {mode : Mode} {content : ByteArray} :
      Reordered (.file mode content) (.file mode content)
  | directory {mode : Mode} {entries others : List (Name × Node)} :
      (entries.map (·.1)).Perm (others.map (·.1)) →
      (∀ name node other,
        entries.lookup name = some node → others.lookup name = some other →
          Reordered node other) →
      Reordered (.directory mode entries) (.directory mode others)
  | link {target : Path} : Reordered (.link target) (.link target)
  | pipe {mode : Mode} : Reordered (.pipe mode) (.pipe mode)
  | device {mode : Mode} : Reordered (.device mode) (.device mode)

theorem Reordered.symm {node other : Node} (same : Reordered node other) :
    Reordered other node := by
  induction same with
  | file => exact .file
  | directory sameNames _ inductionHypothesis =>
      exact
        .directory sameNames.symm fun name first second firstFound secondFound =>
          inductionHypothesis name second first secondFound firstFound
  | link => exact .link
  | pipe => exact .pipe
  | device => exact .device

theorem Reordered.of_isWellFormed {node : Node} (wellFormed : node.IsWellFormed) :
    Reordered node node := by
  induction wellFormed with
  | file => exact .file
  | directory _ _ _ inductionHypothesis =>
      refine .directory (List.Perm.refl _) ?_
      intro name first second found again
      obtain rfl := Option.some.inj (found.symm.trans again)
      exact inductionHypothesis (name, first) (mem_of_lookup found)
  | link => exact .link
  | pipe => exact .pipe
  | device => exact .device

private theorem lookup_eq_none_iff_not_mem_names (entries : List (Name × Node)) (name : Name) :
    entries.lookup name = none ↔ name ∉ entries.map (·.1) := by
  rw [List.lookup_eq_none_iff]
  constructor
  · intro different member
    obtain ⟨entry, found, rfl⟩ := List.mem_map.mp member
    simpa using different entry found
  · intro absent entry member
    have differs : name ≠ entry.1 := by
      rintro rfl
      exact absent (List.mem_map_of_mem member)
    simpa using differs

/-- A name that one directory has is a name of the other one as well. -/
theorem lookup_of_perm
    {entries others : List (Name × Node)}
    (sameNames : (entries.map (·.1)).Perm (others.map (·.1)))
    {name : Name} {node : Node} (found : entries.lookup name = some node) :
    ∃ other, others.lookup name = some other := by
  cases otherFound : others.lookup name with
  | some other => exact ⟨other, rfl⟩
  | none =>
      rw [lookup_eq_none_iff_not_mem_names, ← sameNames.mem_iff,
        ← lookup_eq_none_iff_not_mem_names, found] at otherFound
      cases otherFound

/-- A tree stays well-formed when its entries are put in another order. -/
theorem Reordered.isWellFormed
    {node other : Node} (same : Reordered node other) (wellFormed : node.IsWellFormed) :
    other.IsWellFormed := by
  induction same with
  | file => exact .file
  | @directory mode entries others sameNames _ inductionHypothesis =>
      cases wellFormed with
      | directory distinct proper below =>
          have otherDistinct := sameNames.nodup_iff.mp distinct
          refine .directory otherDistinct ?_ ?_
          · intro entry member
            have named := sameNames.mem_iff.mpr (List.mem_map_of_mem member)
            obtain ⟨original, found, sameName⟩ := List.mem_map.mp named
            rw [← sameName]
            exact proper original found
          · rintro ⟨name, other⟩ member
            have otherFound := lookup_of_mem otherDistinct member
            obtain ⟨original, found⟩ := lookup_of_perm sameNames.symm otherFound
            exact
              inductionHypothesis name original other found otherFound
                (below _ (mem_of_lookup found))
  | link => exact .link
  | pipe => exact .pipe
  | device => exact .device

end Node

namespace FileSystem

/-- Two file systems that differ at most in the order in which directories list their entries. -/
structure Reordered (files other : FileSystem) : Prop where
  tree : files.root.Reordered other.root
  workingDirectory : other.workingDirectory = files.workingDirectory

theorem Reordered.symm {files other : FileSystem} (same : files.Reordered other) :
    other.Reordered files :=
  ⟨same.tree.symm, same.workingDirectory.symm⟩

/-- Corresponding entries on the way. -/
def SamePassed (passed others : List (Name × Node)) : Prop :=
  List.Forall₂ (fun first second => first.1 = second.1 ∧ first.2.Reordered second.2) passed others

theorem SamePassed.node
    {root otherRoot : Node} {passed others : List (Name × Node)}
    (sameRoot : root.Reordered otherRoot) (same : SamePassed passed others) :
    (Trail.node root passed).Reordered (Trail.node otherRoot others) := by
  cases same with
  | nil => exact sameRoot
  | cons sameHead _ => exact sameHead.2

theorem SamePassed.tail
    {passed others : List (Name × Node)} (same : SamePassed passed others) :
    SamePassed passed.tail others.tail := by
  cases same with
  | nil => exact .nil
  | cons _ sameTail => exact sameTail

private inductive SameTurn : Turn → Turn → Prop where
  | refused {error : FileError} : SameTurn (.refused error) (.refused error)
  | missing : SameTurn .missing .missing
  | followed {passed others : List (Name × Node)} :
      SamePassed passed others → SameTurn (.followed passed) (.followed others)
  | linked {target : Path} : SameTurn (.linked target) (.linked target)

private theorem sameTurn_turn
    {root otherRoot : Node} (sameRoot : root.Reordered otherRoot) (manner : Manner)
    {passed others : List (Name × Node)} (same : SamePassed passed others) (name : Name) :
    SameTurn (turn root manner passed name) (turn otherRoot manner others name) := by
  have sameNode := same.node sameRoot
  rw [turn, turn]
  generalize Trail.node root passed = reached, Trail.node otherRoot others = otherReached
    at sameNode ⊢
  cases sameNode with
  | @directory mode entries otherEntries sameNames sameEntries =>
      simp only
      split
      · exact .followed same
      split
      · exact .refused
      split
      · exact .followed same
      split
      · exact .followed same.tail
      split
      · exact .refused
      cases found : entries.lookup name with
      | none =>
          cases otherFound : otherEntries.lookup name with
          | none => exact .missing
          | some other =>
              obtain ⟨node, impossible⟩ := Node.lookup_of_perm sameNames.symm otherFound
              rw [found] at impossible
              cases impossible
      | some node =>
          obtain ⟨other, otherFound⟩ := Node.lookup_of_perm sameNames found
          rw [otherFound]
          have sameEntry := sameEntries name node other found otherFound
          cases sameEntry with
          | link => exact .linked
          | file => exact .followed (.cons ⟨rfl, .file⟩ same)
          | directory lowerNames lowerEntries =>
              exact .followed (.cons ⟨rfl, .directory lowerNames lowerEntries⟩ same)
          | pipe => exact .followed (.cons ⟨rfl, .pipe⟩ same)
          | device => exact .followed (.cons ⟨rfl, .device⟩ same)
  | file => exact .refused
  | link => exact .refused
  | pipe => exact .refused
  | device => exact .refused

/-- Corresponding results of following a path. -/
inductive SameResult : Except FileError Trail → Except FileError Trail → Prop where
  | error {error : FileError} : SameResult (.error error) (.error error)
  | ok {passed others : List (Name × Node)} {missing : List Name} :
      SamePassed passed others →
      SameResult (.ok { passed := passed, missing := missing })
        (.ok { passed := others, missing := missing })

private theorem sameResult_follow
    {root otherRoot : Node} (sameRoot : root.Reordered otherRoot)
    {manner : Manner} (followsLast : manner.followsLast = true)
    (links : Nat) (names : List Name)
    {passed others : List (Name × Node)} (same : SamePassed passed others) :
    SameResult (follow root manner links passed names)
      (follow otherRoot manner links others names) := by
  induction links, names using follow_induction generalizing passed others with
  | nil links =>
      rw [follow, follow]
      exact .ok same
  | cons links name rest inductionHypothesis fewerLinks =>
      rw [follow_cons followsLast, follow_cons followsLast]
      have sameTurn := sameTurn_turn sameRoot manner same name
      generalize turn root manner passed name = first, turn otherRoot manner others name = second
        at sameTurn ⊢
      cases sameTurn with
      | refused => exact .error
      | missing => exact .ok same
      | followed further => exact inductionHypothesis further
      | linked =>
          cases links with
          | zero => exact .error
          | succ fewer =>
              refine fewerLinks fewer _ (Nat.lt_succ_self fewer) ?_
              split
              · exact .nil
              · exact same

theorem SameResult.exists_ok
    {passed : List (Name × Node)} {missing : List Name} {result : Except FileError Trail}
    (same : SameResult (.ok { passed := passed, missing := missing }) result) :
    ∃ others, result = .ok { passed := others, missing := missing } ∧ SamePassed passed others := by
  cases same with
  | ok samePassed => exact ⟨_, rfl, samePassed⟩

private theorem Reordered.samePassed_origin
    {files other : FileSystem} (same : files.Reordered other) (path : Path) :
    SamePassed (files.origin path) (other.origin path) := by
  rw [origin, origin, workingTrail, workingTrail, same.workingDirectory]
  split
  · exact .nil
  · have sameResult :=
      sameResult_follow same.tree
        (rfl : ({ checked := false, followsLast := true } : Manner).followsLast = true)
        0 files.workingDirectory .nil
    generalize follow files.root _ 0 [] files.workingDirectory = first,
      follow other.root _ 0 [] files.workingDirectory = second at sameResult ⊢
    cases sameResult with
    | error => exact .nil
    | ok samePassed => exact samePassed

/-- A path leads to corresponding directories. -/
theorem Reordered.openDirectory
    {files other : FileSystem} (same : files.Reordered other)
    {path : Path} {mode : Mode} {entries : List (Name × Node)}
    (opened : files.openDirectory path = .ok (mode, entries)) :
    ∃ others,
      other.openDirectory path = .ok (mode, others) ∧
        (Node.directory mode entries).Reordered (.directory mode others) := by
  obtain ⟨destination, trailed, reached, readable⟩ := (openDirectory_eq_ok_iff _ _ _ _).mp opened
  obtain ⟨noNul, nonempty, short, followed⟩ := (trail_eq_ok_iff _ _ _).mp trailed
  have sameResult :=
    sameResult_follow same.tree (rfl : Manner.opening.followsLast = true) linkLimit path.parts
      (same.samePassed_origin path)
  rw [followed] at sameResult
  obtain ⟨otherDestination, otherFollowed, samePassed⟩ := sameResult.exists_ok
  have otherTrailed := (trail_eq_ok_iff _ _ _).mpr ⟨noNul, nonempty, short, otherFollowed⟩
  have sameNode := samePassed.node same.tree
  rw [reached] at sameNode
  generalize otherReached : Trail.node other.root otherDestination = otherNode at sameNode
  cases sameNode with
  | directory sameNames sameEntries =>
      exact
        ⟨_, (openDirectory_eq_ok_iff _ _ _ _).mpr
          ⟨otherDestination, otherTrailed, otherReached, readable⟩,
          .directory sameNames sameEntries⟩

end FileSystem

end SourceCritic
