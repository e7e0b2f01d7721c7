import SourceCritic.FileSystem.Access

/-!
# Joining names to paths

A name that a directory may have for one of its entries has no slash in it and leads to nothing but
that entry.  Joined to a path, it becomes the last part of the path, so the names of a joined path
are those of the path and the ones that were joined to it.
-/

namespace SourceCritic

/-- A name that a directory may have for one of its entries. -/
structure IsEntryName (name : Name) : Prop where
  nonempty : name ≠ []
  noSlash : Path.slash ∉ name
  noNul : 0 ∉ name
  notHere : name ≠ Path.here
  notAbove : name ≠ Path.above
  short : name.length ≤ FileSystem.nameLimit

private theorem isEntryName_iff (name : Name) :
    IsEntryName name ↔
      (name ≠ [] ∧ Path.slash ∉ name ∧ 0 ∉ name) ∧
        name ≠ Path.here ∧ name ≠ Path.above ∧ name.length ≤ FileSystem.nameLimit := by
  constructor
  · rintro ⟨nonempty, noSlash, noNul, notHere, notAbove, short⟩
    exact ⟨⟨nonempty, noSlash, noNul⟩, notHere, notAbove, short⟩
  · rintro ⟨⟨nonempty, noSlash, noNul⟩, notHere, notAbove, short⟩
    exact ⟨nonempty, noSlash, noNul, notHere, notAbove, short⟩

instance (name : Name) : Decidable (IsEntryName name) :=
  decidable_of_iff' _ (isEntryName_iff name)

namespace Path

/-! ## Parts -/

private theorem divide_slash (rest : List UInt8) : divide (slash :: rest) = [] :: divide rest := by
  simp [divide]

private theorem divide_ne_nil (bytes : List UInt8) : divide bytes ≠ [] := by
  cases bytes with
  | nil => simp [divide]
  | cons head rest =>
      by_cases isSlash : head = slash
      · simp [isSlash, divide_slash]
      · simp only [divide, List.foldr_cons, isSlash, if_false]
        split <;> simp

private theorem divide_cons_of_ne
    {head : UInt8} {rest part : List UInt8} {later : List Name}
    (notSlash : head ≠ slash)
    (divided : divide rest = part :: later) :
    divide (head :: rest) = (head :: part) :: later := by
  have unfolded := divided
  simp only [divide] at unfolded ⊢
  simp [notSlash, unfolded]

theorem divide_of_not_mem {name : Name} (noSlash : slash ∉ name) : divide name = [name] := by
  induction name with
  | nil => rfl
  | cons head rest inductionHypothesis =>
      rw [List.mem_cons, not_or] at noSlash
      exact divide_cons_of_ne (Ne.symm noSlash.1) (inductionHypothesis noSlash.2)

/-- A slash divides the bytes on its sides from each other. -/
theorem divide_append_slash (first second : List UInt8) :
    divide (first ++ slash :: second) = divide first ++ divide second := by
  induction first with
  | nil => exact divide_slash second
  | cons head rest inductionHypothesis =>
      by_cases isSlash : head = slash
      · subst isSlash
        rw [List.cons_append, divide_slash, divide_slash, inductionHypothesis, List.cons_append]
      · obtain ⟨part, later, divided⟩ := List.exists_cons_of_ne_nil (divide_ne_nil rest)
        rw [divided, List.cons_append] at inductionHypothesis
        rw [List.cons_append, divide_cons_of_ne isSlash divided,
          divide_cons_of_ne isSlash inductionHypothesis, List.cons_append]

/-- A joined name is the last part, in place of the empty part behind a slash at the end. -/
theorem parts_join (path : Path) {name : Name} (noSlash : slash ∉ name) :
    (path.join name).parts = path.parts ++ [name] ∨
      ∃ front, path.parts = front ++ [[]] ∧ (path.join name).parts = front ++ [name] := by
  by_cases ends : path.endsInSlash = true
  · right
    have last : path.bytes.getLast? = some slash := by
      simpa [endsInSlash] using ends
    obtain ⟨front, shape⟩ := List.getLast?_eq_some_iff.mp last
    refine ⟨divide front, ?_, ?_⟩
    · rw [parts, shape, divide_append_slash]
      rfl
    · rw [join, if_pos ends, parts, shape, List.append_assoc, List.singleton_append,
        divide_append_slash, divide_of_not_mem noSlash]
  · left
    rw [join, if_neg ends, parts, divide_append_slash, divide_of_not_mem noSlash]
    rfl

/-! ## Names -/

/-- A name of an entry is added to the names of a path as it is. -/
theorem names_join (path : Path) {name : Name} (isEntry : IsEntryName name) :
    (path.join name).names = path.names ++ [name] := by
  have kept : (!name.isEmpty && name != here) = true := by
    simp [isEntry.nonempty, isEntry.notHere]
  rcases path.parts_join isEntry.noSlash with shape | ⟨front, pathShape, shape⟩
  · rw [names, shape, List.filter_append, ← names]
    simp [kept]
  · rw [names, names, shape, pathShape, List.filter_append, List.filter_append]
    simp [kept]

/-- The path with names joined to it one after the other. -/
def joins (path : Path) (names : List Name) : Path :=
  names.foldl join path

@[simp]
theorem joins_nil (path : Path) : path.joins [] = path :=
  rfl

@[simp]
theorem joins_cons (path : Path) (name : Name) (later : List Name) :
    path.joins (name :: later) = (path.join name).joins later :=
  rfl

theorem names_joins
    (path : Path) {names : List Name} (areEntries : ∀ name ∈ names, IsEntryName name) :
    (path.joins names).names = path.names ++ names := by
  induction names generalizing path with
  | nil => simp
  | cons name later inductionHypothesis =>
      rw [List.forall_mem_cons] at areEntries
      rw [joins_cons, inductionHypothesis (path.join name) areEntries.2,
        path.names_join areEntries.1, List.append_assoc, List.singleton_append]

/-! ## Bytes -/

theorem isAbsolute_join
    {path : Path} (nonempty : path.bytes ≠ []) (name : Name) :
    (path.join name).isAbsolute = path.isAbsolute := by
  obtain ⟨head, rest, shape⟩ := List.exists_cons_of_ne_nil nonempty
  rw [join]
  split <;> simp [isAbsolute, shape]

theorem bytes_join_ne_nil
    {path : Path} (nonempty : path.bytes ≠ []) (name : Name) :
    (path.join name).bytes ≠ [] := by
  rw [join]
  split <;> simp [nonempty]

/-- Joining a name does not bring a zero byte into a path. -/
theorem nul_not_mem_join
    {path : Path} {name : Name} (noNul : 0 ∉ path.bytes) (isEntry : IsEntryName name) :
    0 ∉ (path.join name).bytes := by
  have notSlash : (0 : UInt8) ≠ slash := by
    decide
  rw [join]
  split <;> simp [noNul, isEntry.noNul, notSlash]

end Path

end SourceCritic
