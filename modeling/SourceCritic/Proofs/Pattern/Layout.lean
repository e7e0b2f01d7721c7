import SourceCritic.Pattern.Basic

/-!
# Layouts of items

How a text that matches a sequence of items is divided, read off from the front of the sequence:
one character for a single item, a run for a repeated one, and a fixed text for the items of a
text.  Together these equivalences spell out the shape of everything that a given pattern matches.
-/

namespace SourceCritic

namespace CharClass

/-- Every character of a text belongs to a class. -/
def Covers (taken : CharClass) (text : List Char) : Prop :=
  ∀ character ∈ text, taken.contains character = true

instance (taken : CharClass) (text : List Char) : Decidable (taken.Covers text) :=
  decidable_of_iff (text.all taken.contains = true) List.all_eq_true

@[simp]
theorem covers_nil (taken : CharClass) : taken.Covers [] := by
  simp [Covers]

@[simp]
theorem covers_cons_iff (taken : CharClass) (head : Char) (rest : List Char) :
    taken.Covers (head :: rest) ↔
      taken.contains head = true ∧ taken.Covers rest := by
  simp [Covers]

@[simp]
theorem covers_append_iff (taken : CharClass) (front back : List Char) :
    taken.Covers (front ++ back) ↔ taken.Covers front ∧ taken.Covers back := by
  simp only [Covers, List.mem_append]
  constructor
  · intro covered
    exact
      ⟨fun character member => covered character (Or.inl member),
        fun character member => covered character (Or.inr member)⟩
  · rintro ⟨frontCovered, backCovered⟩ character (member | member)
    · exact frontCovered character member
    · exact backCovered character member

end CharClass

/-! ## Shapes of matched texts -/

@[simp]
theorem matches_nil_iff (text : List Char) : Matches [] text ↔ text = [] := by
  constructor
  · intro matching
    cases matching
    rfl
  · rintro rfl
    exact Matches.nil

theorem matches_one_iff
    (taken : CharClass) (items : List Item) (text : List Char) :
    Matches (.one taken :: items) text ↔
      ∃ head rest,
        text = head :: rest ∧ taken.contains head = true ∧ Matches items rest := by
  constructor
  · intro matching
    cases matching with
    | one belongs remaining => exact ⟨_, _, rfl, belongs, remaining⟩
  · rintro ⟨head, rest, rfl, belongs, remaining⟩
    exact Matches.one belongs remaining

theorem not_matches_one_nil (taken : CharClass) (items : List Item) :
    ¬ Matches (.one taken :: items) [] := by
  intro matching
  cases matching

theorem matches_optional_iff
    (taken : CharClass) (items : List Item) (text : List Char) :
    Matches (.optional taken :: items) text ↔
      Matches items text ∨
        ∃ head rest,
          text = head :: rest ∧ taken.contains head = true ∧ Matches items rest := by
  constructor
  · intro matching
    cases matching with
    | absent remaining => exact Or.inl remaining
    | present belongs remaining => exact Or.inr ⟨_, _, rfl, belongs, remaining⟩
  · rintro (remaining | ⟨head, rest, rfl, belongs, remaining⟩)
    · exact Matches.absent remaining
    · exact Matches.present belongs remaining

/-- A repeated item takes any run of its class that stands in front of what the other items
take. -/
theorem Matches.run_append
    {preference : Preference} {taken : CharClass} {items : List Item}
    {run rest : List Char}
    (covered : taken.Covers run)
    (remaining : Matches (.many preference taken :: items) rest) :
    Matches (.many preference taken :: items) (run ++ rest) := by
  induction run with
  | nil => exact remaining
  | cons head tail inductionHypothesis =>
      rw [CharClass.covers_cons_iff] at covered
      exact Matches.another covered.1 (inductionHypothesis covered.2)

/-- A repetition takes any run of its class, whichever end of it is tried first. -/
theorem matches_many_iff
    (preference : Preference) (taken : CharClass) (items : List Item)
    (text : List Char) :
    Matches (.many preference taken :: items) text ↔
      ∃ run rest, text = run ++ rest ∧ taken.Covers run ∧ Matches items rest := by
  constructor
  · intro matching
    induction text with
    | nil =>
        cases matching with
        | finished remaining => exact ⟨[], [], rfl, by simp, remaining⟩
    | cons head rest inductionHypothesis =>
        cases matching with
        | finished remaining => exact ⟨[], head :: rest, rfl, by simp, remaining⟩
        | another belongs repeated =>
            obtain ⟨run, later, rfl, covered, remaining⟩ :=
              inductionHypothesis repeated
            exact ⟨head :: run, later, rfl, by simp [belongs, covered], remaining⟩
  · rintro ⟨run, rest, rfl, covered, remaining⟩
    exact Matches.run_append covered (Matches.finished remaining)

theorem matches_one_many_iff
    (preference : Preference) (taken : CharClass) (items : List Item)
    (text : List Char) :
    Matches (.one taken :: .many preference taken :: items) text ↔
      ∃ run rest,
        text = run ++ rest ∧ run ≠ [] ∧ taken.Covers run ∧ Matches items rest := by
  rw [matches_one_iff]
  constructor
  · rintro ⟨head, later, rfl, belongs, repeated⟩
    obtain ⟨run, rest, rfl, covered, remaining⟩ :=
      (matches_many_iff preference taken items later).mp repeated
    exact ⟨head :: run, rest, rfl, by simp, by simp [belongs, covered], remaining⟩
  · rintro ⟨run, rest, rfl, nonempty, covered, remaining⟩
    cases run with
    | nil => exact absurd rfl nonempty
    | cons head tail =>
        rw [CharClass.covers_cons_iff] at covered
        exact
          ⟨head, tail ++ rest, rfl, covered.1,
            (matches_many_iff preference taken items (tail ++ rest)).mpr
              ⟨tail, rest, rfl, covered.2, remaining⟩⟩

theorem matches_text_append_iff
    (expected : String) (items : List Item) (text : List Char) :
    Matches (Item.text expected ++ items) text ↔
      ∃ rest, text = expected.toList ++ rest ∧ Matches items rest := by
  unfold Item.text
  generalize expected.toList = characters
  induction characters generalizing text with
  | nil => simp
  | cons first later inductionHypothesis =>
      rw [List.map_cons, List.cons_append, matches_one_iff]
      constructor
      · rintro ⟨head, rest, rfl, belongs, remaining⟩
        obtain ⟨tail, rfl, fitting⟩ := (inductionHypothesis rest).mp remaining
        have same : head = first := by
          simpa [CharClass.contains] using belongs
        exact ⟨tail, by rw [same]; rfl, fitting⟩
      · rintro ⟨rest, rfl, fitting⟩
        exact
          ⟨first, later ++ rest, rfl, by simp [CharClass.contains],
            (inductionHypothesis (later ++ rest)).mpr ⟨rest, rfl, fitting⟩⟩

/-- Items one after the other divide the text between them. -/
theorem exists_division_of_matches_append
    {first second : List Item} {text : List Char}
    (matching : Matches (first ++ second) text) :
    ∃ front back, text = front ++ back ∧ Matches first front ∧ Matches second back := by
  induction first generalizing text with
  | nil => exact ⟨[], text, rfl, Matches.nil, matching⟩
  | cons item items inductionHypothesis =>
      rw [List.cons_append] at matching
      cases item with
      | one taken =>
          obtain ⟨head, rest, rfl, belongs, remaining⟩ :=
            (matches_one_iff taken (items ++ second) text).mp matching
          obtain ⟨front, back, rfl, frontMatches, backMatches⟩ := inductionHypothesis remaining
          exact ⟨head :: front, back, rfl, Matches.one belongs frontMatches, backMatches⟩
      | optional taken =>
          rcases (matches_optional_iff taken (items ++ second) text).mp matching with
            remaining | ⟨head, rest, rfl, belongs, remaining⟩
          · obtain ⟨front, back, rfl, frontMatches, backMatches⟩ := inductionHypothesis remaining
            exact ⟨front, back, rfl, Matches.absent frontMatches, backMatches⟩
          · obtain ⟨front, back, rfl, frontMatches, backMatches⟩ := inductionHypothesis remaining
            exact ⟨head :: front, back, rfl, Matches.present belongs frontMatches, backMatches⟩
      | many preference taken =>
          obtain ⟨run, rest, rfl, covered, remaining⟩ :=
            (matches_many_iff preference taken (items ++ second) text).mp matching
          obtain ⟨front, back, rfl, frontMatches, backMatches⟩ := inductionHypothesis remaining
          exact
            ⟨run ++ front, back, by rw [List.append_assoc],
              Matches.run_append covered (Matches.finished frontMatches), backMatches⟩

/-! ## Deciding whether items match -/

/-- Whether an item may take the whole of a text. -/
def Item.Takes : Item → List Char → Prop
  | .one taken, run => run.length = 1 ∧ taken.Covers run
  | .optional taken, run => run.length ≤ 1 ∧ taken.Covers run
  | .many _ taken, run => taken.Covers run

instance (item : Item) (run : List Char) : Decidable (item.Takes run) :=
  match item with
  | .one taken => inferInstanceAs (Decidable (run.length = 1 ∧ taken.Covers run))
  | .optional taken => inferInstanceAs (Decidable (run.length ≤ 1 ∧ taken.Covers run))
  | .many _ taken => inferInstanceAs (Decidable (taken.Covers run))

private theorem matches_cons_iff (item : Item) (items : List Item) (text : List Char) :
    Matches (item :: items) text ↔
      ∃ run rest, text = run ++ rest ∧ item.Takes run ∧ Matches items rest := by
  cases item with
  | one taken =>
      rw [matches_one_iff]
      constructor
      · rintro ⟨head, rest, rfl, belongs, remaining⟩
        exact ⟨[head], rest, rfl, ⟨rfl, by simpa using belongs⟩, remaining⟩
      · rintro ⟨run, rest, rfl, ⟨single, covered⟩, remaining⟩
        obtain ⟨head, rfl⟩ := List.length_eq_one_iff.mp single
        exact ⟨head, rest, rfl, covered head (by simp), remaining⟩
  | optional taken =>
      rw [matches_optional_iff]
      constructor
      · rintro (remaining | ⟨head, rest, rfl, belongs, remaining⟩)
        · exact ⟨[], text, rfl, ⟨by simp, by simp⟩, remaining⟩
        · exact ⟨[head], rest, rfl, ⟨Nat.le_refl 1, by simpa using belongs⟩, remaining⟩
      · rintro ⟨run, rest, rfl, ⟨atMostOne, covered⟩, remaining⟩
        cases run with
        | nil => exact Or.inl remaining
        | cons head later =>
            have single : later = [] := by
              apply List.eq_nil_of_length_eq_zero
              rw [List.length_cons] at atMostOne
              omega
            subst single
            exact Or.inr ⟨head, rest, rfl, covered head (by simp), remaining⟩
  | many preference taken => exact matches_many_iff preference taken items text

/-- An item and the items behind it divide a text at one of finitely many places. -/
theorem matches_cons_iff_exists_length (item : Item) (items : List Item) (text : List Char) :
    Matches (item :: items) text ↔
      ∃ length ∈ List.range (text.length + 1),
        item.Takes (text.take length) ∧ Matches items (text.drop length) := by
  rw [matches_cons_iff]
  constructor
  · rintro ⟨run, rest, rfl, takes, remaining⟩
    refine ⟨run.length, ?_, ?_, ?_⟩
    · rw [List.mem_range, List.length_append]
      omega
    · rw [List.take_left]
      exact takes
    · rw [List.drop_left]
      exact remaining
  · rintro ⟨length, _, takes, remaining⟩
    exact ⟨text.take length, text.drop length, by simp, takes, remaining⟩

instance decidableMatches :
    (items : List Item) → (text : List Char) → Decidable (Matches items text)
  | [], text => decidable_of_iff (text = []) (matches_nil_iff text).symm
  | item :: items, text =>
      have (length : Nat) : Decidable (Matches items (text.drop length)) :=
        decidableMatches items (text.drop length)
      decidable_of_iff _ (matches_cons_iff_exists_length item items text).symm

end SourceCritic
