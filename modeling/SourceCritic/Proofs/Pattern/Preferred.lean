import SourceCritic.Pattern.Search
import SourceCritic.Proofs.Pattern.Runs

/-!
# Preferred layouts

The sweep keeps a row of lengths for every place of a text.  Read at one place, the first length
of the row is `preferredLength`: it obeys one equation for each kind of item, and it is found
exactly where the items fit in some way.

The second half is about when preferences do not matter.  `PrefersShortest` says that the
preferred layout is never longer than another one.  A repetition that takes as much as it can
keeps this property if the items behind it can give way, and a repetition that takes as little as
it can keeps it if the items behind it close with a character that they do not pass before.
-/

namespace SourceCritic

/-! ## The lengths that a sweep finds -/

namespace MatchRow

/-- The row at the place between a character and the text behind it. -/
def ofText (last : Anchor) (items : List Item) :
    (previous : Option Char) → (text : List Char) → MatchRow
  | previous, [] => atPlace (last.holds previous none) none items []
  | previous, head :: rest =>
      atPlace (last.holds previous (some head)) (some head) items
        (ofText last items (some head) rest)

private theorem tail_ofText
    (last : Anchor) (item : Item) (items : List Item)
    (previous : Option Char) (text : List Char) :
    (ofText last (item :: items) previous text).tail =
      ofText last items previous text := by
  induction text generalizing previous with
  | nil => rfl
  | cons head rest inductionHypothesis =>
      rw [ofText, ofText, ← inductionHypothesis (some head)]
      rfl

end MatchRow

/-- The length of the preferred layout at the place between a character and the text behind it. -/
def preferredLength
    (last : Anchor) (items : List Item)
    (previous : Option Char) (text : List Char) : Option Nat :=
  (MatchRow.ofText last items previous text).whole

/-- The length of a layout that takes one character and goes on with `continued`. -/
def taking (taken : CharClass) (continued : Option Char → List Char → Option Nat) :
    List Char → Option Nat
  | [] => none
  | head :: rest =>
      if taken.contains head then (continued (some head) rest).map (· + 1) else none

private theorem taking_eq_some_iff
    (taken : CharClass) (continued : Option Char → List Char → Option Nat)
    (text : List Char) (length : Nat) :
    taking taken continued text = some length ↔
      ∃ head rest shorter,
        text = head :: rest ∧ taken.contains head = true ∧
          continued (some head) rest = some shorter ∧ length = shorter + 1 := by
  cases text with
  | nil => simp [taking]
  | cons head rest =>
      rw [taking]
      constructor
      · intro found
        split at found
        · obtain ⟨shorter, known, rfl⟩ := Option.map_eq_some_iff.mp found
          exact ⟨head, rest, shorter, rfl, ‹_›, known, rfl⟩
        · cases found
      · rintro ⟨_, _, shorter, equality, belongs, known, rfl⟩
        cases equality
        rw [if_pos belongs, known]
        rfl

private theorem preferredLength_nil
    (last : Anchor) (previous : Option Char) (text : List Char) :
    preferredLength last [] previous text =
      if last.holds previous text.head? then some 0 else none := by
  cases text <;> rfl

private theorem preferredLength_one
    (last : Anchor) (taken : CharClass) (items : List Item)
    (previous : Option Char) (text : List Char) :
    preferredLength last (.one taken :: items) previous text =
      taking taken (preferredLength last items) text := by
  cases text with
  | nil => rfl
  | cons head rest =>
      simp only [taking, preferredLength]
      rw [← MatchRow.tail_ofText last (.one taken) items (some head) rest]
      rfl

private theorem preferredLength_optional
    (last : Anchor) (taken : CharClass) (items : List Item)
    (previous : Option Char) (text : List Char) :
    preferredLength last (.optional taken :: items) previous text =
      (taking taken (preferredLength last items) text).or
        (preferredLength last items previous text) := by
  cases text with
  | nil => rfl
  | cons head rest =>
      simp only [taking, preferredLength]
      rw [← MatchRow.tail_ofText last (.optional taken) items (some head) rest,
        ← MatchRow.tail_ofText last (.optional taken) items previous (head :: rest)]
      rfl

/-- A repetition that prefers to be long goes on for as long as the rest can be matched. -/
theorem preferredLength_longest
    (last : Anchor) (taken : CharClass) (items : List Item)
    (previous : Option Char) (text : List Char) :
    preferredLength last (.many .longest taken :: items) previous text =
      (taking taken (preferredLength last (.many .longest taken :: items)) text).or
        (preferredLength last items previous text) := by
  cases text with
  | nil => rfl
  | cons head rest =>
      simp only [taking, preferredLength]
      rw [← MatchRow.tail_ofText last (.many .longest taken) items previous (head :: rest)]
      rfl

/-- A repetition that prefers to be short goes on only where the rest cannot be matched. -/
theorem preferredLength_shortest
    (last : Anchor) (taken : CharClass) (items : List Item)
    (previous : Option Char) (text : List Char) :
    preferredLength last (.many .shortest taken :: items) previous text =
      (preferredLength last items previous text).or
        (taking taken (preferredLength last (.many .shortest taken :: items)) text) := by
  cases text with
  | nil => rfl
  | cons head rest =>
      simp only [taking, preferredLength]
      rw [← MatchRow.tail_ofText last (.many .shortest taken) items previous (head :: rest)]
      rfl

namespace Sweep

private theorem next_through (pattern : Pattern) (text : List Char) :
    (through pattern text).next = text.head? := by
  cases text <;> rfl

private theorem row_visit_through
    (pattern : Pattern) (previous : Option Char) (text : List Char) :
    ((through pattern text).visit pattern previous).row =
      MatchRow.ofText pattern.last pattern.items previous text := by
  induction text generalizing previous with
  | nil => rfl
  | cons head rest inductionHypothesis =>
      rw [MatchRow.ofText, ← inductionHypothesis (some head)]
      rfl

end Sweep

/-- The length of the match at the place between a character and the text behind it. -/
def Pattern.lengthAt
    (pattern : Pattern) (previous : Option Char) (text : List Char) : Option Nat :=
  if pattern.first.holds previous text.head? then
    preferredLength pattern.last pattern.items previous text
  else
    none

/-- A sweep finds the length of the match at every place. -/
theorem Sweep.lengths_visit_through
    (pattern : Pattern) (previous : Option Char) (text : List Char) :
    ((Sweep.through pattern text).visit pattern previous).lengths =
      pattern.lengthAt previous text :: (Sweep.through pattern text).lengths := by
  rw [Pattern.lengthAt, preferredLength, ← Sweep.row_visit_through, ← Sweep.next_through pattern]
  rfl

/-! ## Layouts that fit -/

/-- Items fit at a place if they match `matched`, which stands behind the character `previous`,
and if the anchor behind them holds in front of `after`. -/
def Fits
    (last : Anchor) (items : List Item)
    (previous : Option Char) (matched after : List Char) : Prop :=
  Matches items matched ∧
    last.holds (matched.getLast?.or previous) after.head? = true

private theorem getLast?_cons_or (head : Char) (rest : List Char) (previous : Option Char) :
    (head :: rest).getLast?.or previous = rest.getLast?.or (some head) := by
  rw [List.getLast?_cons]
  cases rest.getLast? <;> rfl

theorem Fits.cons
    {last : Anchor} {items extended : List Item} {previous : Option Char}
    {head : Char} {matched after : List Char}
    (extend : Matches items matched → Matches extended (head :: matched))
    (fits : Fits last items (some head) matched after) :
    Fits last extended previous (head :: matched) after := by
  refine ⟨extend fits.1, ?_⟩
  rw [getLast?_cons_or]
  exact fits.2

theorem Fits.imp
    {last : Anchor} {items extended : List Item} {previous : Option Char}
    {matched after : List Char}
    (extend : Matches items matched → Matches extended matched)
    (fits : Fits last items previous matched after) :
    Fits last extended previous matched after :=
  ⟨extend fits.1, fits.2⟩

theorem Fits.tail
    {last : Anchor} {items remaining : List Item} {previous : Option Char}
    {head : Char} {matched after : List Char}
    (fits : Fits last items previous (head :: matched) after)
    (matching : Matches remaining matched) :
    Fits last remaining (some head) matched after := by
  refine ⟨matching, ?_⟩
  rw [← getLast?_cons_or head matched previous]
  exact fits.2

/-- Items fit at a place with a layout of the given length. -/
def FitsWith
    (last : Anchor) (items : List Item)
    (previous : Option Char) (text : List Char) (length : Nat) : Prop :=
  ∃ matched after,
    text = matched ++ after ∧ matched.length = length ∧
      Fits last items previous matched after

theorem FitsWith.imp
    {last : Anchor} {items extended : List Item} {previous : Option Char}
    {text : List Char} {length : Nat}
    (extend : ∀ matched, Matches items matched → Matches extended matched)
    (fits : FitsWith last items previous text length) :
    FitsWith last extended previous text length := by
  obtain ⟨matched, after, division, sameLength, fitting⟩ := fits
  exact ⟨matched, after, division, sameLength, fitting.imp (extend matched)⟩

theorem FitsWith.cons
    {last : Anchor} {items extended : List Item} {previous : Option Char}
    {head : Char} {rest : List Char} {length : Nat}
    (extend : ∀ matched, Matches items matched → Matches extended (head :: matched))
    (fits : FitsWith last items (some head) rest length) :
    FitsWith last extended previous (head :: rest) (length + 1) := by
  obtain ⟨matched, after, rfl, rfl, fitting⟩ := fits
  exact ⟨head :: matched, after, rfl, rfl, fitting.cons (extend matched)⟩

/-- A preferred length is the length of a layout that fits.  A repetition goes on with the same
items on a shorter text, and every other item leaves fewer items behind. -/
theorem fitsWith_of_preferredLength {last : Anchor} :
    ∀ (items : List Item) (previous : Option Char) (text : List Char) {length : Nat},
      preferredLength last items previous text = some length →
        FitsWith last items previous text length
  | [], previous, text, length, preferred => by
      rw [preferredLength_nil] at preferred
      split at preferred
      · cases preferred
        exact ⟨[], text, rfl, rfl, Matches.nil, ‹_›⟩
      · cases preferred
  | .one taken :: items, previous, text, length, preferred => by
      rw [preferredLength_one, taking_eq_some_iff] at preferred
      obtain ⟨head, rest, shorter, rfl, belongs, known, rfl⟩ := preferred
      exact
        (fitsWith_of_preferredLength items (some head) rest known).cons
          fun _ => Matches.one belongs
  | .optional taken :: items, previous, text, length, preferred => by
      rw [preferredLength_optional, Option.or_eq_some_iff, taking_eq_some_iff] at preferred
      rcases preferred with
        ⟨head, rest, shorter, rfl, belongs, known, rfl⟩ | ⟨_, known⟩
      · exact
          (fitsWith_of_preferredLength items (some head) rest known).cons
            fun _ => Matches.present belongs
      · exact
          (fitsWith_of_preferredLength items previous text known).imp
            fun _ => Matches.absent
  | .many .longest taken :: items, previous, text, length, preferred => by
      rw [preferredLength_longest, Option.or_eq_some_iff, taking_eq_some_iff] at preferred
      rcases preferred with
        ⟨head, rest, shorter, rfl, belongs, known, rfl⟩ | ⟨_, known⟩
      · exact
          (fitsWith_of_preferredLength (.many .longest taken :: items)
            (some head) rest known).cons fun _ => Matches.another belongs
      · exact
          (fitsWith_of_preferredLength items previous text known).imp
            fun _ => Matches.finished
  | .many .shortest taken :: items, previous, text, length, preferred => by
      rw [preferredLength_shortest, Option.or_eq_some_iff, taking_eq_some_iff] at preferred
      rcases preferred with
        known | ⟨_, head, rest, shorter, rfl, belongs, known, rfl⟩
      · exact
          (fitsWith_of_preferredLength items previous text known).imp
            fun _ => Matches.finished
      · exact
          (fitsWith_of_preferredLength (.many .shortest taken :: items)
            (some head) rest known).cons fun _ => Matches.another belongs
termination_by
  items _ text => (text.length, items.length)

private theorem isSome_taking
    {taken : CharClass} {continued : Option Char → List Char → Option Nat}
    {head : Char} {rest : List Char}
    (belongs : taken.contains head = true)
    (found : (continued (some head) rest).isSome = true) :
    (taking taken continued (head :: rest)).isSome = true := by
  rw [taking, if_pos belongs, Option.isSome_map]
  exact found

/-- Where items fit in some way, there is a preferred length. -/
theorem Fits.isSome_preferredLength
    {last : Anchor} {items : List Item} {previous : Option Char}
    {matched after : List Char}
    (fits : Fits last items previous matched after) :
    (preferredLength last items previous (matched ++ after)).isSome = true := by
  obtain ⟨matching, closed⟩ := fits
  induction matching generalizing previous with
  | nil =>
      have closes : last.holds previous after.head? = true := closed
      rw [preferredLength_nil, List.nil_append, if_pos closes]
      rfl
  | one belongs _ inductionHypothesis =>
      rw [getLast?_cons_or] at closed
      rw [preferredLength_one]
      exact isSome_taking belongs (inductionHypothesis closed)
  | absent _ inductionHypothesis =>
      rw [preferredLength_optional, Option.isSome_or, inductionHypothesis closed,
        Bool.or_true]
  | present belongs _ inductionHypothesis =>
      rw [getLast?_cons_or] at closed
      rw [preferredLength_optional, Option.isSome_or, List.cons_append,
        isSome_taking belongs (inductionHypothesis closed), Bool.true_or]
  | @finished preference taken items text _ inductionHypothesis =>
      cases preference with
      | longest =>
          rw [preferredLength_longest, Option.isSome_or, inductionHypothesis closed,
            Bool.or_true]
      | shortest =>
          rw [preferredLength_shortest, Option.isSome_or, inductionHypothesis closed,
            Bool.true_or]
  | @another preference taken items head rest belongs _ inductionHypothesis =>
      rw [getLast?_cons_or] at closed
      have taken := isSome_taking belongs (inductionHypothesis closed)
      cases preference with
      | longest =>
          rw [preferredLength_longest, Option.isSome_or, List.cons_append, taken,
            Bool.true_or]
      | shortest =>
          rw [preferredLength_shortest, Option.isSome_or, List.cons_append, taken,
            Bool.or_true]

/-! ## When preferences do not matter -/

/-- The preferred layout of the items is never longer than another one. -/
def PrefersShortest (last : Anchor) (items : List Item) : Prop :=
  ∀ (previous : Option Char) (matched after : List Char) (length : Nat),
    Fits last items previous matched after →
    preferredLength last items previous (matched ++ after) = some length →
    length ≤ matched.length

theorem prefersShortest_nil (last : Anchor) : PrefersShortest last [] := by
  intro previous matched after length _ preferred
  rw [preferredLength_nil] at preferred
  split at preferred
  · cases preferred
    exact Nat.zero_le _
  · cases preferred

/-- Where a text can be matched in one way only, that way is the shortest one. -/
theorem PrefersShortest.of_unique
    {last : Anchor} {items : List Item}
    (unique :
      ∀ (previous : Option Char) (matched after other rest : List Char),
        Fits last items previous matched after →
        Fits last items previous other rest →
        matched ++ after = other ++ rest →
        matched = other) :
    PrefersShortest last items := by
  intro previous matched after length fits preferred
  obtain ⟨other, rest, division, rfl, otherFits⟩ :=
    fitsWith_of_preferredLength items previous _ preferred
  exact Nat.le_of_eq (congrArg List.length (unique _ _ _ _ _ fits otherFits division)).symm

theorem PrefersShortest.one
    {last : Anchor} {items : List Item} (taken : CharClass)
    (shortest : PrefersShortest last items) :
    PrefersShortest last (.one taken :: items) := by
  intro previous matched after length fits preferred
  obtain ⟨head, matched, rfl, _, matching⟩ :=
    (matches_one_iff taken items matched).mp fits.1
  rw [preferredLength_one, List.cons_append, taking_eq_some_iff] at preferred
  obtain ⟨_, _, shorter, equality, _, known, rfl⟩ := preferred
  cases equality
  have bound := shortest _ _ _ _ (fits.tail matching) known
  rw [List.length_cons]
  omega

theorem PrefersShortest.text
    {last : Anchor} {items : List Item} (expected : String)
    (shortest : PrefersShortest last items) :
    PrefersShortest last (Item.text expected ++ items) := by
  unfold Item.text
  induction expected.toList with
  | nil => exact shortest
  | cons head rest inductionHypothesis =>
      exact PrefersShortest.one (.literal head) inductionHypothesis

/-- Items give way to a class if, whenever their match begins with a character of the class, they
also match what is behind that character. -/
def GivesWay (taken : CharClass) (items : List Item) : Prop :=
  ∀ matched, Matches items matched →
    ∃ head rest,
      matched = head :: rest ∧ (taken.contains head = true → Matches items rest)

/-- An item whose class is disjoint from another one gives way to it. -/
theorem GivesWay.one
    {taken first : CharClass} {items : List Item}
    (disjoint : first.IsDisjoint taken) :
    GivesWay taken (.one first :: items) := by
  intro matched matching
  obtain ⟨head, rest, rfl, belongs, _⟩ := (matches_one_iff first items matched).mp matching
  refine ⟨head, rest, rfl, ?_⟩
  intro belonging
  rw [disjoint _ belongs] at belonging
  cases belonging

theorem GivesWay.many
    {taken repeated : CharClass} {items : List Item} (preference : Preference)
    (givesWay : GivesWay taken items) :
    GivesWay taken (.many preference repeated :: items) := by
  intro matched matching
  cases matching with
  | finished remaining =>
      obtain ⟨head, rest, shape, dropped⟩ := givesWay _ remaining
      exact ⟨head, rest, shape, fun belongs => Matches.finished (dropped belongs)⟩
  | another _ remaining => exact ⟨_, _, rfl, fun _ => remaining⟩

/-- A character that a repetition can take is never needed by items that give way. -/
private theorem Fits.tail_of_givesWay
    {last : Anchor} {taken : CharClass} {items : List Item} {preference : Preference}
    {previous : Option Char} {head : Char} {rest matched after : List Char}
    (givesWay : GivesWay taken items)
    (belongs : taken.contains head = true)
    (division : head :: rest = matched ++ after)
    (fits : Fits last (.many preference taken :: items) previous matched after) :
    ∃ shorter,
      matched = head :: shorter ∧ rest = shorter ++ after ∧
        Fits last (.many preference taken :: items) (some head) shorter after := by
  obtain ⟨first, shorter, rfl, dropped⟩ := GivesWay.many preference givesWay _ fits.1
  rw [List.cons_append] at division
  injection division with sameHead sameRest
  subst sameHead
  exact ⟨shorter, rfl, sameRest, fits.tail (dropped belongs)⟩

/-- Taking as much as possible is harmless in front of items that give way. -/
theorem PrefersShortest.longest
    {last : Anchor} {taken : CharClass} {items : List Item}
    (givesWay : GivesWay taken items)
    (shortest : PrefersShortest last items) :
    PrefersShortest last (.many .longest taken :: items) := by
  intro previous matched after length fits preferred
  generalize division : matched ++ after = text at preferred
  induction text generalizing previous matched length with
  | nil =>
      obtain ⟨head, rest, rfl, _⟩ := GivesWay.many .longest givesWay _ fits.1
      cases division
  | cons head rest inductionHypothesis =>
      rw [preferredLength_longest, Option.or_eq_some_iff, taking_eq_some_iff] at preferred
      by_cases belongs : taken.contains head = true
      · obtain ⟨shorter, rfl, restDivision, shorterFits⟩ :=
          fits.tail_of_givesWay givesWay belongs division.symm
        rcases preferred with ⟨_, _, count, equality, _, known, rfl⟩ | ⟨missing, _⟩
        · cases equality
          have bound := inductionHypothesis _ _ _ shorterFits restDivision.symm known
          rw [List.length_cons]
          omega
        · have found := shorterFits.isSome_preferredLength
          rw [← restDivision] at found
          have impossible :
              (taking taken (preferredLength last (.many .longest taken :: items))
                (head :: rest)).isSome = true :=
            isSome_taking belongs found
          rw [missing] at impossible
          cases impossible
      · rcases preferred with ⟨_, _, _, equality, belonging, _⟩ | ⟨_, known⟩
        · cases equality
          exact absurd belonging belongs
        · have matching : Matches items matched := by
            have original := fits.1
            cases original with
            | finished remaining => exact remaining
            | another belonging _ =>
                cases division
                exact absurd belonging belongs
          rw [← division] at known
          exact shortest _ _ _ _ ⟨matching, fits.2⟩ known

/-- Items close with a character if every match holds it, and if every match can be cut off so
that the character stands at its two ends only, if at all. -/
structure ClosesWith (closing : Char) (items : List Item) : Prop where
  mem : ∀ {matched : List Char}, Matches items matched → closing ∈ matched
  shrink :
    ∀ {head : Char} {rest : List Char}, Matches items (head :: rest) →
      ∃ inner tail,
        rest = inner ++ tail ∧ closing ∉ inner.dropLast ∧ Matches items (head :: inner)

private theorem fits_anywhere_iff
    (items : List Item) (previous : Option Char) (matched after : List Char) :
    Fits .anywhere items previous matched after ↔ Matches items matched := by
  simp [Fits, Anchor.holds]

private theorem length_lt_of_mem_of_not_mem
    {sought : Char} {first second firstRest secondRest : List Char}
    (division : first ++ firstRest = second ++ secondRest)
    (absent : sought ∉ first)
    (present : sought ∈ second) :
    first.length < second.length := by
  apply Nat.lt_of_not_le
  intro notLonger
  have initial : second <+: first :=
    List.prefix_of_prefix_length_le ⟨secondRest, rfl⟩ ⟨firstRest, division⟩ notLonger
  exact absent (initial.subset present)

/-- The preferred length of closing items is reached before any later closing character. -/
theorem ClosesWith.length_le
    {items : List Item} {closing head : Char} {previous : Option Char}
    {passed after : List Char} {length : Nat}
    (closes : ClosesWith closing items)
    (shortest : PrefersShortest .anywhere items)
    (preferred :
      preferredLength .anywhere items previous (head :: (passed ++ after)) = some length)
    (member : closing ∈ passed) :
    length ≤ passed.length + 1 := by
  obtain ⟨matched, rest, division, _, matching, _⟩ :=
    fitsWith_of_preferredLength items previous _ preferred
  cases matched with
  | nil => cases closes.mem matching
  | cons first later =>
      rw [List.cons_append] at division
      injection division with sameHead sameRest
      subst sameHead
      obtain ⟨inner, tail, rfl, absent, shrunk⟩ := closes.shrink matching
      obtain ⟨dropped, kept⟩ := List.dropLast_prefix inner
      have bothDivisions : inner.dropLast ++ (dropped ++ (tail ++ rest)) = passed ++ after := by
        rw [sameRest, ← List.append_assoc inner.dropLast, kept, List.append_assoc]
      have innerShorter : inner.dropLast.length < passed.length :=
        length_lt_of_mem_of_not_mem bothDivisions absent member
      have reached : length ≤ (head :: inner).length := by
        apply shortest _ _ _ _ ((fits_anywhere_iff items previous _ (tail ++ rest)).mpr shrunk)
        rw [sameRest, List.append_assoc] at preferred
        exact preferred
      rw [List.length_dropLast] at innerShorter
      rw [List.length_cons] at reached
      omega

/-- Taking as little as possible yields the shortest match in front of items that close with a
character. -/
theorem PrefersShortest.shortest
    {taken : CharClass} {items : List Item} {closing : Char}
    (closes : ClosesWith closing items)
    (shortest : PrefersShortest .anywhere items) :
    PrefersShortest .anywhere (.many .shortest taken :: items) := by
  have memMany :
      ∀ {matched : List Char},
        Matches (.many .shortest taken :: items) matched → closing ∈ matched := by
    intro matched matching
    obtain ⟨run, rest, rfl, _, remaining⟩ :=
      (matches_many_iff .shortest taken items matched).mp matching
    exact List.mem_append_right run (closes.mem remaining)
  intro previous matched after length fits preferred
  generalize division : matched ++ after = text at preferred
  induction text generalizing previous matched length with
  | nil =>
      have member := memMany fits.1
      rw [(List.append_eq_nil_iff.mp division).1] at member
      cases member
  | cons head rest inductionHypothesis =>
      rw [preferredLength_shortest, Option.or_eq_some_iff, taking_eq_some_iff] at preferred
      obtain ⟨matching, _⟩ := fits
      rcases preferred with known | ⟨missing, _, _, count, equality, belongs, known, rfl⟩
      · cases matching with
        | finished remaining =>
            rw [← division] at known
            exact shortest _ _ _ _ ((fits_anywhere_iff items previous _ _).mpr remaining) known
        | another _ repeated =>
            -- The layout that stops here can be shrunk until it ends before the other one does.
            rw [List.cons_append] at division
            injection division with sameHead sameRest
            rw [← sameRest] at known
            exact closes.length_le shortest known (memMany repeated)
      · cases equality
        cases matching with
        | finished remaining =>
            have found :=
              ((fits_anywhere_iff items previous _ after).mpr remaining).isSome_preferredLength
            rw [division, missing] at found
            cases found
        | another _ repeated =>
            rw [List.cons_append] at division
            injection division with sameHead sameRest
            subst sameHead
            have bound :=
              inductionHypothesis _ _ _
                ((fits_anywhere_iff _ (some _) _ after).mpr repeated) sameRest known
            rw [List.length_cons]
            omega

end SourceCritic
