import SourceCritic.Proofs.FileSystem.Following

/-!
# Places

A place is told by the names that lead to it from the root of a tree, and what stands at a place is
an entry without the ones below it.  Following a path visits some places.

The main result compares two file systems: where they have the same at all places that a path visits
in one of them, the path ends with the same error or leads to entries that differ at most in what is
below them.  Elsewhere the two may have whatever they like.
-/

namespace SourceCritic

namespace Node

/-- The entry that names lead to from another one, without following links. -/
def descend : Node → List Name → Option Node
  | node, [] => some node
  | node, name :: later => (node.entry? name).bind fun entry => entry.descend later

@[simp]
theorem descend_nil (node : Node) : node.descend [] = some node :=
  rfl

@[simp]
theorem descend_directory
    (mode : Mode) (entries : List (Name × Node)) (name : Name) (later : List Name) :
    (Node.directory mode entries).descend (name :: later) =
      (entries.lookup name).bind fun entry => entry.descend later :=
  rfl

theorem descend_of_lookup
    {entries : List (Name × Node)} {name : Name} {entry : Node}
    (found : entries.lookup name = some entry) (mode : Mode) (later : List Name) :
    (Node.directory mode entries).descend (name :: later) = entry.descend later := by
  rw [descend_directory, found]
  rfl

private theorem descend_append (node : Node) (front later : List Name) :
    node.descend (front ++ later) =
      (node.descend front).bind fun reached => reached.descend later := by
  induction front generalizing node with
  | nil => simp
  | cons name rest inductionHypothesis =>
      rw [List.cons_append, descend, descend, Option.bind_assoc]
      simp only [inductionHypothesis]

private theorem descend_singleton (mode : Mode) (entries : List (Name × Node)) (name : Name) :
    (Node.directory mode entries).descend [name] = entries.lookup name := by
  simp

/-- An entry without what is below it. -/
def bare : Node → Node
  | .directory mode _ => .directory mode []
  | other => other

/-- What stands at a place. -/
def at? (tree : Node) (place : List Name) : Option Node :=
  (tree.descend place).map bare

private theorem at?_singleton (mode : Mode) (entries : List (Name × Node)) (name : Name) :
    (Node.directory mode entries).at? [name] = (entries.lookup name).map bare := by
  rw [at?, descend_singleton]

theorem exists_directory_of_bare_eq
    {node other : Node} {mode : Mode} {entries : List (Name × Node)}
    (isDirectory : node = .directory mode entries) (same : node.bare = other.bare) :
    ∃ others, other = .directory mode others := by
  subst isDirectory
  cases other with
  | directory otherMode others =>
      have sameMode : mode = otherMode := by
        injection same
      exact ⟨others, by rw [sameMode]⟩
  | _ => cases same

/-- An entry that is no directory is all there is to it. -/
theorem eq_of_bare_eq
    {node other : Node} (notDirectory : node.isDirectory = false) (same : node.bare = other.bare) :
    other = node := by
  cases node with
  | directory mode entries => cases notDirectory
  | _ =>
      cases other with
      | directory mode entries => cases same
      | _ => exact same.symm

end Node

namespace FileSystem

variable {root otherRoot : Node} {manner : Manner}

/-! ## Ways through a tree -/

def Trail.place (passed : List (Name × Node)) : List Name :=
  (passed.map (·.1)).reverse

@[simp]
theorem Trail.place_cons (entry : Name × Node) (passed : List (Name × Node)) :
    Trail.place (entry :: passed) = Trail.place passed ++ [entry.1] := by
  simp [Trail.place]

/-- Every entry on the way stands in the one before it. -/
def IsWay (root : Node) : List (Name × Node) → Prop
  | [] => True
  | (name, node) :: passed =>
      (Trail.node root passed).descend [name] = some node ∧ IsWay root passed

theorem IsWay.tail {passed : List (Name × Node)} (isWay : IsWay root passed) :
    IsWay root passed.tail := by
  cases passed with
  | nil => exact isWay
  | cons entry earlier => exact isWay.2

private theorem IsWay.descend_place {passed : List (Name × Node)} (isWay : IsWay root passed) :
    root.descend (Trail.place passed) = some (Trail.node root passed) := by
  induction passed with
  | nil => rfl
  | cons entry earlier inductionHypothesis =>
      obtain ⟨name, node⟩ := entry
      rw [Trail.place_cons, Node.descend_append, inductionHypothesis isWay.2, Option.bind_some]
      exact isWay.1

private theorem IsWay.at?_place {passed : List (Name × Node)} (isWay : IsWay root passed) :
    root.at? (Trail.place passed) = some (Trail.node root passed).bare := by
  rw [Node.at?, isWay.descend_place, Option.map_some]

private theorem IsWay.at?_below {passed : List (Name × Node)} (isWay : IsWay root passed)
    (name : Name) :
    root.at? (Trail.place passed ++ [name]) = (Trail.node root passed).at? [name] := by
  rw [Node.at?, Node.descend_append, isWay.descend_place, Option.bind_some, Node.at?]

/-! ## Places that are visited -/

/-- The places that a step looks at: the one that it leads to, or the one that it finds missing or
with a link. -/
def Turn.places (passed : List (Name × Node)) (name : Name) : Turn → List (List Name)
  | .refused _ => []
  | .missing => [Trail.place passed ++ [name]]
  | .followed further => [Trail.place further]
  | .linked _ => [Trail.place passed ++ [name]]

/-- The places that are visited when names are followed, those of the links on the way included. -/
def visitedFrom (root : Node) (manner : Manner)
    (links : Nat) (passed : List (Name × Node)) (names : List Name) : List (List Name) :=
  match names with
  | [] => [Trail.place passed]
  | name :: rest =>
      let turned := turn root manner passed name
      Trail.place passed :: (turned.places passed name ++
        match turned with
        | .followed further => visitedFrom root manner links further rest
        | .linked target =>
            match links with
            | 0 => []
            | fewer + 1 =>
                visitedFrom root manner fewer (if target.isAbsolute then [] else passed)
                  (target.parts ++ rest)
        | _ => [])
  termination_by (links, names.length)

/-- The places that a path visits.  One that is not absolute starts where the working directory is;
one that is refused as a whole visits nothing. -/
def visited (files : FileSystem) (path : Path) : List (List Name) :=
  if path.bytes.contains 0 || path.bytes.isEmpty || path.bytes.length > pathLimit then
    []
  else
    (if path.isAbsolute then
      []
    else
      visitedFrom files.root { checked := false, followsLast := true } 0 []
        files.workingDirectory) ++
    visitedFrom files.root .opening linkLimit (files.origin path) path.parts

/-! ## Two trees with the same at the places that are visited -/

/-- Ways to one place in two trees. -/
structure SameWay (root otherRoot : Node) (passed others : List (Name × Node)) : Prop where
  isWay : IsWay root passed
  otherIsWay : IsWay otherRoot others
  sameNames : others.map (·.1) = passed.map (·.1)

namespace SameWay

variable {passed others : List (Name × Node)}

theorem nil : SameWay root otherRoot [] [] :=
  ⟨trivial, trivial, rfl⟩

private theorem place_eq (same : SameWay root otherRoot passed others) :
    Trail.place others = Trail.place passed := by
  rw [Trail.place, Trail.place, same.sameNames]

theorem tail (same : SameWay root otherRoot passed others) :
    SameWay root otherRoot passed.tail others.tail := by
  refine ⟨same.isWay.tail, same.otherIsWay.tail, ?_⟩
  rw [List.map_tail, List.map_tail, same.sameNames]

private theorem bare_node_eq
    (same : SameWay root otherRoot passed others)
    (agree : root.at? (Trail.place passed) = otherRoot.at? (Trail.place passed)) :
    (Trail.node root passed).bare = (Trail.node otherRoot others).bare := by
  rw [same.isWay.at?_place, ← same.place_eq, same.otherIsWay.at?_place] at agree
  exact Option.some.inj agree

end SameWay

/-- Steps to one place in two trees, or steps that fail or meet a link in the same way. -/
private inductive SameStep (root otherRoot : Node) : Turn → Turn → Prop where
  | refused {error : FileError} : SameStep root otherRoot (.refused error) (.refused error)
  | missing : SameStep root otherRoot .missing .missing
  | followed {passed others : List (Name × Node)} :
      SameWay root otherRoot passed others →
      SameStep root otherRoot (.followed passed) (.followed others)
  | linked {target : Path} : SameStep root otherRoot (.linked target) (.linked target)

private theorem sameStep_turn
    {passed others : List (Name × Node)} (same : SameWay root otherRoot passed others) (name : Name)
    (here : root.at? (Trail.place passed) = otherRoot.at? (Trail.place passed))
    (there :
      ∀ place ∈ (turn root manner passed name).places passed name,
        root.at? place = otherRoot.at? place) :
    SameStep root otherRoot (turn root manner passed name) (turn otherRoot manner others name) := by
  have sameBare := same.bare_node_eq here
  have below := same.isWay.at?_below name
  have otherBelow := same.otherIsWay.at?_below name
  rw [same.place_eq] at otherBelow
  revert there
  rw [turn, turn]
  cases reached : Trail.node root passed with
  | directory mode entries =>
      obtain ⟨otherEntries, otherReached⟩ := Node.exists_directory_of_bare_eq reached sameBare
      rw [reached, Node.at?_singleton] at below
      rw [otherReached, Node.at?_singleton] at otherBelow
      rw [otherReached]
      simp only
      split
      · exact fun _ => .followed same
      split
      · exact fun _ => .refused
      split
      · exact fun _ => .followed same
      split
      · exact fun _ => .followed same.tail
      split
      · exact fun _ => .refused
      intro there
      -- The name is looked up, so its place is visited and has the same in both trees.
      have sameEntry :
          (entries.lookup name).map Node.bare = (otherEntries.lookup name).map Node.bare := by
        rw [← below, ← otherBelow]
        refine there _ ?_
        split <;> simp [Turn.places]
      cases found : entries.lookup name with
      | none =>
          rw [found, Option.map_none, eq_comm, Option.map_eq_none_iff] at sameEntry
          rw [sameEntry]
          exact .missing
      | some node =>
          rw [found, Option.map_some, eq_comm, Option.map_eq_some_iff] at sameEntry
          obtain ⟨other, otherFound, sameNode⟩ := sameEntry
          rw [otherFound]
          have further :
              SameWay root otherRoot ((name, node) :: passed) ((name, other) :: others) := by
            refine ⟨⟨?_, same.isWay⟩, ⟨?_, same.otherIsWay⟩, ?_⟩
            · rw [reached, Node.descend_singleton, found]
            · rw [otherReached, Node.descend_singleton, otherFound]
            · rw [List.map_cons, List.map_cons, same.sameNames]
          cases node with
          | directory lowerMode lowerEntries =>
              obtain ⟨_, rfl⟩ := Node.exists_directory_of_bare_eq rfl sameNode.symm
              exact .followed further
          | link target =>
              obtain rfl := Node.eq_of_bare_eq rfl sameNode.symm
              exact .linked
          | _ =>
              obtain rfl := Node.eq_of_bare_eq rfl sameNode.symm
              exact .followed further
  | _ =>
      rw [reached] at sameBare
      rw [Node.eq_of_bare_eq rfl sameBare]
      exact fun _ => .refused

/-- Names that lead to one place in two trees, or are refused or missing in the same way. -/
inductive SameEnd (root otherRoot : Node) :
    Except FileError Trail → Except FileError Trail → Prop where
  | error {error : FileError} : SameEnd root otherRoot (.error error) (.error error)
  | ok {passed others : List (Name × Node)} {missing : List Name} :
      SameWay root otherRoot passed others →
      root.at? (Trail.place passed) = otherRoot.at? (Trail.place passed) →
      SameEnd root otherRoot (.ok { passed := passed, missing := missing })
        (.ok { passed := others, missing := missing })

/-- Two trees that agree at the places on the way lead names to the same end. -/
theorem sameEnd_follow
    (followsLast : manner.followsLast = true)
    (links : Nat) (names : List Name)
    {passed others : List (Name × Node)} (same : SameWay root otherRoot passed others)
    (agree :
      ∀ place ∈ visitedFrom root manner links passed names,
        root.at? place = otherRoot.at? place) :
    SameEnd root otherRoot (follow root manner links passed names)
      (follow otherRoot manner links others names) := by
  -- A name leaves fewer names to follow, and a link fewer links: what is visited further on is part
  -- of what is visited from here.
  induction links, names using follow_induction generalizing passed others with
  | nil links =>
      rw [visitedFrom, List.forall_mem_singleton] at agree
      rw [follow, follow]
      exact .ok same agree
  | cons links name rest inductionHypothesis fewerLinks =>
      rw [visitedFrom, List.forall_mem_cons, List.forall_mem_append] at agree
      obtain ⟨here, there, onward⟩ := agree
      have sameStep := sameStep_turn same name here there
      rw [follow_cons followsLast, follow_cons followsLast]
      generalize turn root manner passed name = first, turn otherRoot manner others name = second
        at sameStep onward ⊢
      cases sameStep with
      | refused => exact .error
      | missing => exact .ok same here
      | followed further => exact inductionHypothesis further onward
      | @linked target =>
          cases links with
          | zero => exact .error
          | succ fewer =>
              refine fewerLinks fewer _ (Nat.lt_succ_self fewer) ?_ onward
              split
              · exact .nil
              · exact same

/-! ## Paths in two file systems -/

/-- Two file systems with the same working directory and the same at all places of a list. -/
structure AgreeAt (files other : FileSystem) (places : List (List Name)) : Prop where
  workingDirectory : other.workingDirectory = files.workingDirectory
  agree : ∀ place ∈ places, files.root.at? place = other.root.at? place

private theorem sameWay_origin
    {files other : FileSystem} {path : Path}
    (sameWorking : other.workingDirectory = files.workingDirectory)
    (agree :
      path.isAbsolute = false →
        ∀ place ∈
          visitedFrom files.root { checked := false, followsLast := true } 0 []
            files.workingDirectory,
          files.root.at? place = other.root.at? place) :
    SameWay files.root other.root (files.origin path) (other.origin path) := by
  rw [origin, origin, workingTrail, workingTrail, sameWorking]
  cases absolute : path.isAbsolute with
  | true => exact .nil
  | false =>
      have sameEnd := sameEnd_follow rfl 0 files.workingDirectory .nil (agree absolute)
      simp only [Bool.false_eq_true, if_false]
      generalize follow files.root _ 0 [] files.workingDirectory = first,
        follow other.root _ 0 [] files.workingDirectory = second at sameEnd ⊢
      cases sameEnd with
      | error => exact .nil
      | ok same _ => exact same

/-- Two trees that agree at the places on the way lead a path to the same end. -/
theorem AgreeAt.sameEnd_trail
    {files other : FileSystem} {path : Path} (same : files.AgreeAt other (files.visited path)) :
    SameEnd files.root other.root (files.trail .opening path) (other.trail .opening path) := by
  obtain ⟨sameWorking, agree⟩ := same
  rw [visited] at agree
  rw [FileSystem.trail, FileSystem.trail, ← origin, ← origin]
  by_cases hasNul : path.bytes.contains 0 = true
  · rw [if_pos hasNul, if_pos hasNul]
    exact .error
  rw [if_neg hasNul, if_neg hasNul]
  by_cases isEmpty : path.bytes.isEmpty = true
  · rw [if_pos isEmpty, if_pos isEmpty]
    exact .error
  rw [if_neg isEmpty, if_neg isEmpty]
  by_cases long : path.bytes.length > pathLimit
  · rw [if_pos long, if_pos long]
    exact .error
  rw [if_neg long, if_neg long]
  have accepted :
      ¬ (path.bytes.contains 0 || path.bytes.isEmpty || path.bytes.length > pathLimit) = true := by
    simp only [hasNul, isEmpty, long, decide_false, Bool.or_self, Bool.false_eq_true,
      not_false_eq_true]
  rw [if_neg accepted, List.forall_mem_append] at agree
  obtain ⟨before, along⟩ := agree
  refine sameEnd_follow rfl linkLimit path.parts (sameWay_origin sameWorking ?_) along
  intro relative
  rwa [if_neg (by rw [relative]; exact Bool.false_ne_true)] at before

/-- The same error, or entries that differ at most in what is below them. -/
inductive SameLookup : Except FileError Node → Except FileError Node → Prop where
  | error {error : FileError} : SameLookup (.error error) (.error error)
  | ok {node other : Node} : node.bare = other.bare → SameLookup (.ok node) (.ok other)

namespace SameLookup

theorem symm
    {first second : Except FileError Node} (same : SameLookup first second) :
    SameLookup second first := by
  cases same with
  | error => exact .error
  | ok sameBare => exact .ok sameBare.symm

theorem eq_error
    {error : FileError} {result : Except FileError Node} (same : SameLookup (.error error) result) :
    result = .error error := by
  cases same with
  | error => rfl

/-- Where one path leads to an entry, the other one leads to an entry that looks the same. -/
theorem exists_ok
    {node : Node} {result : Except FileError Node} (same : SameLookup (.ok node) result) :
    ∃ other, result = .ok other ∧ node.bare = other.bare := by
  cases same with
  | ok sameBare => exact ⟨_, rfl, sameBare⟩

/-- A directory that cannot be opened where one path ends cannot be opened where the other does. -/
theorem openDirectory_eq_error
    {files other : FileSystem} {path otherPath : Path}
    (same : SameLookup (files.lookup path) (other.lookup otherPath))
    {cause : FileError} (closed : files.openDirectory path = .error cause) :
    other.openDirectory otherPath = .error cause := by
  rw [openDirectory] at closed ⊢
  generalize files.lookup path = first, other.lookup otherPath = second at same closed ⊢
  cases same with
  | error => exact closed
  | @ok node otherNode sameBare =>
      cases node with
      | directory mode entries =>
          obtain ⟨others, rfl⟩ := Node.exists_directory_of_bare_eq rfl sameBare
          simp only at closed ⊢
          split at closed
          · cases closed
          · rename_i unreadable
            rw [if_neg unreadable]
            exact closed
      | _ =>
          obtain rfl := Node.eq_of_bare_eq rfl sameBare
          exact closed

end SameLookup

/-- A path ends alike in two file systems with the same at all places that it visits. -/
theorem AgreeAt.sameLookup
    {files other : FileSystem} {path : Path} (same : files.AgreeAt other (files.visited path)) :
    SameLookup (files.lookup path) (other.lookup path) := by
  have sameEnd := same.sameEnd_trail
  rw [lookup, lookup]
  generalize files.trail .opening path = first, other.trail .opening path = second
    at sameEnd ⊢
  cases sameEnd with
  | error => exact .error
  | @ok passed others missing sameWay agree =>
      cases missing with
      | nil => exact .ok (sameWay.bare_node_eq agree)
      | cons name rest => exact .error

theorem AgreeAt.of_append_left
    {files other : FileSystem} {places more : List (List Name)}
    (same : files.AgreeAt other (places ++ more)) : files.AgreeAt other places :=
  ⟨same.workingDirectory, (List.forall_mem_append.mp same.agree).1⟩

theorem AgreeAt.of_append_right
    {files other : FileSystem} {places more : List (List Name)}
    (same : files.AgreeAt other (places ++ more)) : files.AgreeAt other more :=
  ⟨same.workingDirectory, (List.forall_mem_append.mp same.agree).2⟩

end FileSystem

end SourceCritic
