import Mathlib
import SourceCritic.Proofs.FileSystem.Paths

/-!
# Names with an extension

Whether a path names a file that is criticised can be read off its last component, which is what
stands behind the last slash once slashes and single dots at the end have been taken away.  So a
directory in front of the path and such an end behind it change nothing.
-/

namespace SourceCritic.Path

/-! ## The last component -/

/-- What leads nowhere at the end of a path: slashes, and slashes with a single dot. -/
inductive IsTrail : List UInt8 → Prop where
  | nil : IsTrail []
  | slash {later : List UInt8} : IsTrail later → IsTrail (slash :: later)
  | here {later : List UInt8} : IsTrail later → IsTrail (slash :: dot :: later)

/-- Takes slashes, and slashes with a single dot, away from the end of bytes that are given last one
first. -/
def dropTrail : List UInt8 → List UInt8
  | [] => []
  | head :: rest =>
      if head = slash then
        dropTrail rest
      else if head = dot ∧ rest.head? = some slash then
        dropTrail rest
      else
        head :: rest

/-- The bytes behind the last slash of a path without its end that leads nowhere. -/
def lastComponent (bytes : List UInt8) : Name :=
  ((dropTrail bytes.reverse).takeWhile (· != slash)).reverse

private theorem lastComponent_append_slash (bytes : List UInt8) :
    lastComponent (bytes ++ [slash]) = lastComponent bytes := by
  rw [lastComponent, List.reverse_append, List.reverse_singleton, List.singleton_append, dropTrail,
    if_pos rfl, ← lastComponent]

private theorem lastComponent_append_slash_dot (bytes : List UInt8) :
    lastComponent (bytes ++ [slash, dot]) = lastComponent bytes := by
  have notSlash : dot ≠ slash := by
    decide
  rw [← lastComponent_append_slash bytes, lastComponent, lastComponent, List.append_cons,
    List.reverse_append, List.reverse_singleton, List.singleton_append, dropTrail, if_neg notSlash,
    if_pos ⟨rfl, by simp⟩]

/-- What leads nowhere at the end of a path does not change its last component. -/
theorem lastComponent_append_trail
    {trail : List UInt8} (isTrail : IsTrail trail) (bytes : List UInt8) :
    lastComponent (bytes ++ trail) = lastComponent bytes := by
  induction isTrail generalizing bytes with
  | nil => rw [List.append_nil]
  | slash _ inductionHypothesis =>
      rw [List.append_cons, inductionHypothesis, lastComponent_append_slash]
  | here _ inductionHypothesis =>
      rw [List.append_cons, List.append_cons, inductionHypothesis, List.append_assoc,
        List.singleton_append, lastComponent_append_slash_dot]

theorem lastComponent_append_above (bytes : List UInt8) :
    lastComponent (bytes ++ slash :: above) = above := by
  rw [lastComponent, List.reverse_append]
  rfl

/-- A byte that is neither a slash nor a dot keeps everything in front of it. -/
private theorem dropTrail_append
    {reversed : List UInt8} (solid : ∃ byte ∈ reversed, byte ≠ dot ∧ byte ≠ slash)
    (before : List UInt8) :
    dropTrail (reversed ++ before) = dropTrail reversed ++ before := by
  induction reversed with
  | nil => simp at solid
  | cons head rest inductionHypothesis =>
      rw [List.cons_append, dropTrail, dropTrail]
      by_cases solidHead : head ≠ dot ∧ head ≠ slash
      · rw [if_neg solidHead.2, if_neg (solidHead.1 <| ·.1), if_neg solidHead.2,
          if_neg (solidHead.1 <| ·.1), List.cons_append]
      · have solidRest : ∃ byte ∈ rest, byte ≠ dot ∧ byte ≠ slash := by
          obtain ⟨byte, member, isSolid⟩ := solid
          rcases List.mem_cons.mp member with rfl | behind
          · exact absurd isSolid solidHead
          · exact ⟨byte, behind, isSolid⟩
        have sameHead : (rest ++ before).head? = rest.head? := by
          obtain ⟨byte, member, _⟩ := solidRest
          exact List.head?_append_of_ne_nil _ (List.ne_nil_of_mem member)
        rw [sameHead, inductionHypothesis solidRest]
        split_ifs <;> rfl

private theorem takeWhile_append_slash (bytes before : List UInt8) :
    (bytes ++ slash :: before).takeWhile (· != slash) = bytes.takeWhile (· != slash) := by
  induction bytes with
  | nil => simp
  | cons head rest inductionHypothesis =>
      rw [List.cons_append, List.takeWhile_cons, List.takeWhile_cons, inductionHypothesis]

/-- A directory in front of a path does not matter, unless the path leads nowhere. -/
theorem lastComponent_below
    {bytes : List UInt8} (solid : ∃ byte ∈ bytes, byte ≠ dot ∧ byte ≠ slash)
    (directory : List UInt8) :
    lastComponent (directory ++ slash :: bytes) = lastComponent bytes := by
  have solidReversed : ∃ byte ∈ bytes.reverse, byte ≠ dot ∧ byte ≠ slash := by
    simpa using solid
  rw [lastComponent, lastComponent, List.reverse_append, List.reverse_cons, List.append_assoc,
    List.singleton_append, dropTrail_append solidReversed, takeWhile_append_slash]

/-! ## The file name of a path -/

/-- Whether a part of a path leads somewhere. -/
def leads (name : Name) : Bool :=
  !name.isEmpty && name != here

private theorem names_of_not_mem {name : Name} (noSlash : slash ∉ name) :
    names ⟨name⟩ = [name].filter leads := by
  rw [names, parts, divide_of_not_mem noSlash]
  rfl

private theorem names_append_slash (bytes : List UInt8) {name : Name} (noSlash : slash ∉ name) :
    names ⟨bytes ++ slash :: name⟩ = names ⟨bytes⟩ ++ [name].filter leads := by
  rw [names, parts, divide_append_slash, divide_of_not_mem noSlash, List.filter_append]
  rfl

private theorem names_append_slash_of_not_leads
    (bytes : List UInt8) {name : Name} (noSlash : slash ∉ name) (idle : leads name = false) :
    names ⟨bytes ++ slash :: name⟩ = names ⟨bytes⟩ := by
  rw [names_append_slash bytes noSlash, List.filter_singleton, idle, cond_false, List.append_nil]

private theorem slash_not_mem_takeWhile (bytes : List UInt8) :
    slash ∉ (bytes.takeWhile (· != slash)).reverse := by
  rw [List.mem_reverse]
  intro member
  simpa using List.mem_takeWhile_imp member

/-- A part that is not taken away at the end of a path leads somewhere. -/
private theorem leads_of_kept
    {head : UInt8} {rest before : List UInt8} (notSlash : head ≠ slash)
    (notHere : ¬ (head = dot ∧ rest.head? = some slash))
    (divided : (head :: rest).dropWhile (· != slash) = slash :: before) :
    leads ((head :: rest).takeWhile (· != slash)).reverse = true := by
  have kept : (head != slash) = true := by
    simpa using notSlash
  rw [List.dropWhile_cons, if_pos kept] at divided
  rw [List.takeWhile_cons, if_pos kept, List.reverse_cons, leads, Bool.and_eq_true]
  refine ⟨by simp, ?_⟩
  rw [bne_iff_ne, here]
  intro isHere
  cases between : rest.takeWhile (· != slash) with
  | nil =>
      rw [between] at isHere
      have whole := List.takeWhile_append_dropWhile (p := (· != slash)) (l := rest)
      rw [between, divided, List.nil_append] at whole
      refine notHere ⟨by simpa using isHere, ?_⟩
      rw [← whole, List.head?_cons]
  | cons next later =>
      rw [between] at isHere
      have lengths := congrArg List.length isHere
      simp at lengths

/-- The last name of a path is its last component, if that leads somewhere. -/
theorem getLast?_names_reverse (reversed : List UInt8) :
    (names ⟨reversed.reverse⟩).getLast? =
      (some ((dropTrail reversed).takeWhile (· != slash)).reverse).filter leads := by
  induction reversed with
  | nil => rfl
  | cons head rest inductionHypothesis =>
      rw [List.reverse_cons, dropTrail]
      split_ifs with isSlash isHere
      · rw [isSlash, names_append_slash_of_not_leads _ (by simp) rfl, inductionHypothesis]
      · obtain ⟨isDot, isBehindSlash⟩ := isHere
        obtain ⟨before, rfl⟩ := List.head?_eq_some_iff.mp isBehindSlash
        rw [List.reverse_cons, names_append_slash_of_not_leads _ (by simp) rfl]
          at inductionHypothesis
        rw [isDot, List.reverse_cons, List.append_assoc, List.singleton_append,
          names_append_slash_of_not_leads _ (by decide) (by decide), inductionHypothesis]
      · have noSlash := slash_not_mem_takeWhile (head :: rest)
        have whole := List.takeWhile_append_dropWhile (p := (· != slash)) (l := head :: rest)
        rw [← List.reverse_cons]
        cases divided : (head :: rest).dropWhile (· != slash) with
        | nil =>
            rw [divided, List.append_nil] at whole
            rw [whole] at noSlash ⊢
            rw [names_of_not_mem noSlash, List.filter_singleton, Option.filter_some]
            cases leads (head :: rest).reverse <;> rfl
        | cons found before =>
            have isSlash : found = slash := by
              have stops := List.head?_dropWhile_not (· != slash) (head :: rest)
              rw [divided] at stops
              simpa using stops
            subst isSlash
            have isReversed :
                (head :: rest).reverse =
                  before.reverse ++
                    slash :: ((head :: rest).takeWhile (· != slash)).reverse := by
              conv_lhs =>
                rw [← whole, divided, List.reverse_append, List.reverse_cons, List.append_assoc,
                  List.singleton_append]
            have isLeading := leads_of_kept isSlash isHere divided
            rw [isReversed, names_append_slash _ noSlash, List.filter_singleton, isLeading,
              cond_true, List.getLast?_concat, Option.filter_some, if_pos isLeading]

/-- The last name of a path is its last component, if that leads somewhere. -/
theorem getLast?_names (bytes : List UInt8) :
    (names ⟨bytes⟩).getLast? = (some (lastComponent bytes)).filter leads := by
  have reversed := getLast?_names_reverse bytes.reverse
  rwa [List.reverse_reverse] at reversed

/-! ## Extensions -/

/-- An extension stands behind the last dot, and something stands in front of that dot. -/
theorem extension?_eq_some_iff (name : Name) (extension : List UInt8) :
    extension? name = some extension ↔
      ∃ stem, stem ≠ [] ∧ dot ∉ extension ∧ name = stem ++ dot :: extension := by
  constructor
  · intro found
    have whole := List.takeWhile_append_dropWhile (p := (· != dot)) (l := name.reverse)
    simp only [extension?, List.isEmpty_iff] at found
    split_ifs at found with nothing
    obtain rfl := Option.some.inj found
    cases divided : name.reverse.dropWhile (· != dot) with
    | nil =>
        rw [divided] at nothing
        exact absurd rfl nothing
    | cons stop before =>
        have isDot : stop = dot := by
          have stops := List.head?_dropWhile_not (· != dot) name.reverse
          rw [divided] at stops
          simpa using stops
        rw [divided, List.drop_one, List.tail_cons] at nothing
        rw [divided, isDot] at whole
        refine ⟨before.reverse, by simpa using nothing, ?_, ?_⟩
        · rw [List.mem_reverse]
          intro member
          simpa using List.mem_takeWhile_imp member
        · have reversed := congrArg List.reverse whole
          simpa using reversed.symm
  · rintro ⟨stem, nonempty, noDot, rfl⟩
    have behind : ∀ byte ∈ extension.reverse, (byte != dot) = true := by
      intro byte member
      rw [bne_iff_ne]
      rintro rfl
      exact noDot (List.mem_reverse.mp member)
    have reversed :
        (stem ++ dot :: extension).reverse = extension.reverse ++ dot :: stem.reverse := by
      simp
    have taken :
        (extension.reverse ++ dot :: stem.reverse).takeWhile (· != dot) = extension.reverse := by
      rw [List.takeWhile_append_of_pos behind, List.takeWhile_cons, if_neg (by simp),
        List.append_nil]
    have dropped :
        (extension.reverse ++ dot :: stem.reverse).dropWhile (· != dot) = dot :: stem.reverse := by
      rw [List.dropWhile_append_of_pos behind, List.dropWhile_cons, if_neg (by simp)]
    simp [extension?, reversed, taken, dropped, nonempty]

private theorem dot_not_mem_encode {supported : String} (member : supported ∈ supportedExtensions) :
    dot ∉ Text.encode supported := by
  revert supported
  decide +kernel

private theorem encode_ne_nil {supported : String} (member : supported ∈ supportedExtensions) :
    Text.encode supported ≠ [] := by
  revert supported
  decide +kernel

/-- The names that do not count as file names have no extension that is criticised. -/
private theorem counts_of_extension
    {supported : String} (member : supported ∈ supportedExtensions) {stem : List UInt8}
    (nonempty : stem ≠ []) :
    leads (stem ++ dot :: Text.encode supported) = true ∧
      stem ++ dot :: Text.encode supported ≠ above := by
  have long : 3 ≤ (stem ++ dot :: Text.encode supported).length := by
    have := List.length_pos_iff.mpr nonempty
    have := List.length_pos_iff.mpr (encode_ne_nil member)
    rw [List.length_append, List.length_cons]
    omega
  constructor
  · rw [leads, Bool.and_eq_true, bne_iff_ne]
    refine ⟨by simp, ?_⟩
    intro isHere
    rw [isHere] at long
    exact absurd long (by decide)
  · intro isAbove
    rw [isAbove] at long
    exact absurd long (by decide)

private theorem lastComponent_of_fileName?
    {bytes : List UInt8} {name : Name} (named : fileName? ⟨bytes⟩ = some name) :
    lastComponent bytes = name := by
  rw [fileName?, getLast?_names, Option.filter_eq_some_iff, Option.filter_eq_some_iff] at named
  exact Option.some.inj named.1.1

/-- The last component of the path of a file that is criticised has something in front of its
extension. -/
theorem isSupported_iff (bytes : List UInt8) :
    isSupported ⟨bytes⟩ = true ↔
      ∃ supported ∈ supportedExtensions, ∃ stem,
        stem ≠ [] ∧ lastComponent bytes = stem ++ dot :: Text.encode supported := by
  constructor
  · intro criticised
    unfold isSupported at criticised
    split at criticised
    · cases criticised
    · rename_i extension extended
      obtain ⟨name, named, hasExtension⟩ := Option.bind_eq_some_iff.mp extended
      obtain ⟨supported, member, same⟩ := List.any_eq_true.mp criticised
      obtain ⟨stem, nonempty, _, rfl⟩ := (extension?_eq_some_iff _ _).mp hasExtension
      rw [lastComponent_of_fileName? named, ← eq_of_beq same]
      exact ⟨supported, member, stem, nonempty, rfl⟩
  · rintro ⟨supported, member, stem, nonempty, shape⟩
    obtain ⟨isLeading, notAbove⟩ := counts_of_extension member nonempty
    have last := getLast?_names bytes
    have named : fileName? ⟨bytes⟩ = some (lastComponent bytes) := by
      rw [shape] at last ⊢
      rw [fileName?, last, Option.filter_some, if_pos isLeading, Option.filter_some,
        if_pos (by simpa using notAbove)]
    have extended : extension? (lastComponent bytes) = some (Text.encode supported) :=
      (extension?_eq_some_iff _ _).mpr ⟨stem, nonempty, dot_not_mem_encode member, shape⟩
    simp only [isSupported, named, Option.bind_some, extended]
    exact List.any_eq_true.mpr ⟨supported, member, by simp⟩

theorem isSupported_congr
    {bytes others : List UInt8} (same : lastComponent others = lastComponent bytes) :
    isSupported ⟨others⟩ = isSupported ⟨bytes⟩ := by
  rw [Bool.eq_iff_iff, isSupported_iff, isSupported_iff, same]

theorem isSupported_append_above (bytes : List UInt8) :
    isSupported ⟨bytes ++ slash :: above⟩ = false := by
  rw [Bool.eq_false_iff, Ne, isSupported_iff, lastComponent_append_above]
  rintro ⟨supported, member, stem, nonempty, shape⟩
  exact (counts_of_extension member nonempty).2 shape.symm

/-- A path names a file that is criticised if its last component consists of at least one byte, a
dot and one of five extensions.  What leads nowhere at its end does not matter, and neither does a
directory in front of it unless the path itself leads nowhere; a path that ends in the directory
above never names such a file. -/
theorem isSupported_iff_lastComponent (bytes : List UInt8) :
    (isSupported ⟨bytes⟩ = true ↔
      ∃ supported ∈ ["js", "jsx", "ts", "tsx", "py"], ∃ stem,
        stem ≠ [] ∧ lastComponent bytes = stem ++ dot :: Text.encode supported) ∧
    (∀ trail, IsTrail trail → isSupported ⟨bytes ++ trail⟩ = isSupported ⟨bytes⟩) ∧
    ((∃ byte ∈ bytes, byte ≠ dot ∧ byte ≠ slash) →
      ∀ directory trail, IsTrail trail →
        isSupported ⟨directory ++ slash :: (bytes ++ trail)⟩ = isSupported ⟨bytes⟩) ∧
    ∀ trail, IsTrail trail → isSupported ⟨bytes ++ slash :: above ++ trail⟩ = false := by
  refine ⟨isSupported_iff bytes, ?_, ?_, ?_⟩
  · intro trail isTrail
    exact isSupported_congr (lastComponent_append_trail isTrail bytes)
  · intro solid directory trail isTrail
    rw [← List.cons_append, ← List.append_assoc,
      isSupported_congr (lastComponent_append_trail isTrail _),
      isSupported_congr (lastComponent_below solid directory)]
  · intro trail isTrail
    rw [isSupported_congr (lastComponent_append_trail isTrail _), isSupported_append_above]

/-- A name that is not UTF-8 and begins with a dot, below a directory whose name looks like that of
a file, and with an end that leads nowhere. -/
theorem isSupported_iff_lastComponent_stray :
    IsTrail [slash, dot, slash] ∧
      isSupported ⟨[dot, 0xFF, dot, 0x74, 0x73]⟩ = true ∧
      isSupported
        ⟨[0x61, dot, 0x6D, 0x64, slash, dot, 0xFF, dot, 0x74, 0x73, slash, dot, slash]⟩ = true ∧
      isSupported ⟨[dot, 0xFF, dot, 0x74, 0x73, slash, dot, dot, slash, dot, slash]⟩ = false := by
  have isTrail : IsTrail [slash, dot, slash] :=
    .here (.slash .nil)
  obtain ⟨ends, behind, below, above⟩ :=
    isSupported_iff_lastComponent [dot, 0xFF, dot, 0x74, 0x73]
  have criticised : isSupported ⟨[dot, 0xFF, dot, 0x74, 0x73]⟩ = true :=
    ends.mpr ⟨"ts", by simp, [dot, 0xFF], by decide, by decide +kernel⟩
  refine ⟨isTrail, criticised, ?_, above _ isTrail⟩
  exact (below ⟨0xFF, by decide, by decide, by decide⟩ [0x61, dot, 0x6D, 0x64] _ isTrail).trans
    criticised

end SourceCritic.Path
