import Mathlib.Data.List.Infix
import SourceCritic.Proofs.Text.Bytes

/-!
# Texts of bytes that need not be UTF-8

The text of a byte sequence shows every ASCII byte as the character that it stands for, and all
other bytes as characters that are not ASCII.  So the text can be divided in front of an ASCII byte,
and an ASCII word is found in the text exactly if its bytes are found in the byte sequence.
-/

namespace SourceCritic.Text

open Piece

/-! ## What becomes one piece -/

abbrev leadsTwo (first : UInt8) : Bool :=
  0xC2 ≤ first && first ≤ 0xDF

abbrev leadsThree (first : UInt8) : Bool :=
  0xE0 ≤ first && first ≤ 0xEF

abbrev leadsFour (first : UInt8) : Bool :=
  0xF0 ≤ first && first ≤ 0xF4

/-- Bytes that are not ASCII and become one piece, unless a byte stands behind them that continues
them. -/
inductive IsUnit : List UInt8 → Piece → (continues : UInt8 → Bool) → Prop where
  | two {first second : UInt8} :
      leadsTwo first = true → isTail second = true →
      IsUnit [first, second] (.character (Char.ofNat (value2 first second))) fun _ => false
  | three {first second third : UInt8} :
      leadsThree first = true → isSecondOfThree first second = true → isTail third = true →
      IsUnit [first, second, third] (.character (Char.ofNat (value3 first second third)))
        fun _ => false
  | four {first second third fourth : UInt8} :
      leadsFour first = true → isSecondOfFour first second = true → isTail third = true →
      isTail fourth = true →
      IsUnit [first, second, third, fourth]
        (.character (Char.ofNat (value4 first second third fourth))) fun _ => false
  | firstOfTwo {first : UInt8} :
      leadsTwo first = true → IsUnit [first] (.stray [first]) isTail
  | firstOfThree {first : UInt8} :
      leadsThree first = true → IsUnit [first] (.stray [first]) (isSecondOfThree first)
  | firstOfFour {first : UInt8} :
      leadsFour first = true → IsUnit [first] (.stray [first]) (isSecondOfFour first)
  | secondOfThree {first second : UInt8} :
      leadsThree first = true → isSecondOfThree first second = true →
      IsUnit [first, second] (.stray [first, second]) isTail
  | secondOfFour {first second : UInt8} :
      leadsFour first = true → isSecondOfFour first second = true →
      IsUnit [first, second] (.stray [first, second]) isTail
  | thirdOfFour {first second third : UInt8} :
      leadsFour first = true → isSecondOfFour first second = true → isTail third = true →
      IsUnit [first, second, third] (.stray [first, second, third]) isTail
  | other {first : UInt8} :
      ¬ first < 0x80 → ¬ leadsTwo first = true → ¬ leadsThree first = true →
      ¬ leadsFour first = true → IsUnit [first] (.stray [first]) fun _ => false

/-- Bytes of which the first one does not satisfy a test. -/
def Stops (test : UInt8 → Bool) (bytes : List UInt8) : Prop :=
  ∀ next ∈ bytes.head?, test next = false

theorem stops_nil (test : UInt8 → Bool) : Stops test [] := by
  simp [Stops]

theorem stops_cons_iff (test : UInt8 → Bool) (next : UInt8) (rest : List UInt8) :
    Stops test (next :: rest) ↔ ¬ test next = true := by
  simp [Stops]

private theorem pieces_ascii {first : UInt8} (small : first < 0x80) (rest : List UInt8) :
    pieces (first :: rest) = .character (Char.ofNat first.toNat) :: pieces rest := by
  rw [pieces.eq_def]
  simp only [small, if_true]

private theorem not_lt_of_leadsTwo {first : UInt8} (leads : leadsTwo first = true) :
    ¬ first < 0x80 := by
  unfold leadsTwo at leads
  grind

private theorem not_lt_of_leadsThree {first : UInt8} (leads : leadsThree first = true) :
    ¬ first < 0x80 ∧ leadsTwo first = false := by
  unfold leadsThree at leads
  unfold leadsTwo
  grind

private theorem not_lt_of_leadsFour {first : UInt8} (leads : leadsFour first = true) :
    ¬ first < 0x80 ∧ leadsTwo first = false ∧ leadsThree first = false := by
  unfold leadsFour at leads
  unfold leadsTwo leadsThree
  grind

@[simp]
theorem pieces_nil : pieces [] = [] := by
  rw [pieces]

/-- The division goes on behind a unit. -/
theorem IsUnit.pieces_append
    {front rest : List UInt8} {piece : Piece} {continues : UInt8 → Bool}
    (isUnit : IsUnit front piece continues) (stops : Stops continues rest) :
    pieces (front ++ rest) = piece :: pieces rest := by
  cases isUnit with
  | two leads isSecond =>
      have large := not_lt_of_leadsTwo leads
      rw [List.cons_append, pieces.eq_def]
      simp [large, leads, isSecond]
  | three leads isSecond isThird =>
      obtain ⟨large, notTwo⟩ := not_lt_of_leadsThree leads
      rw [List.cons_append, pieces.eq_def]
      simp [large, notTwo, leads, isSecond, isThird]
  | four leads isSecond isThird isFourth =>
      obtain ⟨large, notTwo, notThree⟩ := not_lt_of_leadsFour leads
      rw [List.cons_append, pieces.eq_def]
      simp [large, notTwo, notThree, leads, isSecond, isThird, isFourth]
  | firstOfTwo leads =>
      have large := not_lt_of_leadsTwo leads
      rw [List.cons_append, pieces.eq_def]
      cases rest with
      | nil => simp [large, leads]
      | cons next rest => simp [large, leads, (stops_cons_iff _ _ _).mp stops]
  | firstOfThree leads =>
      obtain ⟨large, notTwo⟩ := not_lt_of_leadsThree leads
      rw [List.cons_append, pieces.eq_def]
      cases rest with
      | nil => simp [large, notTwo, leads]
      | cons next rest => simp [large, notTwo, leads, (stops_cons_iff _ _ _).mp stops]
  | firstOfFour leads =>
      obtain ⟨large, notTwo, notThree⟩ := not_lt_of_leadsFour leads
      rw [List.cons_append, pieces.eq_def]
      cases rest with
      | nil => simp [large, notTwo, notThree, leads]
      | cons next rest => simp [large, notTwo, notThree, leads, (stops_cons_iff _ _ _).mp stops]
  | secondOfThree leads isSecond =>
      obtain ⟨large, notTwo⟩ := not_lt_of_leadsThree leads
      rw [List.cons_append, pieces.eq_def]
      cases rest with
      | nil => simp [large, notTwo, leads, isSecond]
      | cons next rest => simp [large, notTwo, leads, isSecond, (stops_cons_iff _ _ _).mp stops]
  | secondOfFour leads isSecond =>
      obtain ⟨large, notTwo, notThree⟩ := not_lt_of_leadsFour leads
      rw [List.cons_append, pieces.eq_def]
      cases rest with
      | nil => simp [large, notTwo, notThree, leads, isSecond]
      | cons next rest =>
          simp [large, notTwo, notThree, leads, isSecond, (stops_cons_iff _ _ _).mp stops]
  | thirdOfFour leads isSecond isThird =>
      obtain ⟨large, notTwo, notThree⟩ := not_lt_of_leadsFour leads
      rw [List.cons_append, pieces.eq_def]
      cases rest with
      | nil => simp [large, notTwo, notThree, leads, isSecond, isThird]
      | cons next rest =>
          simp [large, notTwo, notThree, leads, isSecond, isThird, (stops_cons_iff _ _ _).mp stops]
  | other large notTwo notThree notFour =>
      rw [List.cons_append, pieces.eq_def]
      simp [large, notTwo, notThree, notFour]

/-- Bytes that do not begin with an ASCII byte begin with a unit. -/
theorem exists_isUnit
    {bytes : List UInt8}
    (notAscii : ¬ ∃ first rest, bytes = first :: rest ∧ first < 0x80)
    (nonempty : bytes ≠ []) :
    ∃ front later piece continues,
      bytes = front ++ later ∧ IsUnit front piece continues ∧ Stops continues later := by
  fun_cases pieces bytes with
  | case1 => exact absurd rfl nonempty
  | case2 first rest small => exact absurd ⟨first, rest, rfl, small⟩ notAscii
  | case3 first _ leads => exact ⟨_, [], _, _, rfl, .firstOfTwo leads, stops_nil _⟩
  | case4 first _ leads second later isSecond =>
      exact ⟨_, later, _, _, rfl, .two leads isSecond, fun _ _ => rfl⟩
  | case5 first _ leads second later notSecond =>
      exact ⟨_, _, _, _, rfl, .firstOfTwo leads, (stops_cons_iff _ _ _).mpr notSecond⟩
  | case6 first _ _ leads => exact ⟨_, [], _, _, rfl, .firstOfThree leads, stops_nil _⟩
  | case7 first _ _ leads second isSecond =>
      exact ⟨_, [], _, _, rfl, .secondOfThree leads isSecond, stops_nil _⟩
  | case8 first _ _ leads second isSecond third later isThird =>
      exact ⟨_, later, _, _, rfl, .three leads isSecond isThird, fun _ _ => rfl⟩
  | case9 first _ _ leads second isSecond third later notThird =>
      exact ⟨_, _, _, _, rfl, .secondOfThree leads isSecond, (stops_cons_iff _ _ _).mpr notThird⟩
  | case10 first _ _ leads second later notSecond =>
      exact ⟨_, _, _, _, rfl, .firstOfThree leads, (stops_cons_iff _ _ _).mpr notSecond⟩
  | case11 first _ _ _ leads => exact ⟨_, [], _, _, rfl, .firstOfFour leads, stops_nil _⟩
  | case12 first _ _ _ leads second isSecond =>
      exact ⟨_, [], _, _, rfl, .secondOfFour leads isSecond, stops_nil _⟩
  | case13 first _ _ _ leads second isSecond third isThird =>
      exact ⟨_, [], _, _, rfl, .thirdOfFour leads isSecond isThird, stops_nil _⟩
  | case14 first _ _ _ leads second isSecond third isThird fourth later isFourth =>
      exact ⟨_, later, _, _, rfl, .four leads isSecond isThird isFourth, fun _ _ => rfl⟩
  | case15 first _ _ _ leads second isSecond third isThird fourth later notFourth =>
      exact
        ⟨_, _, _, _, rfl, .thirdOfFour leads isSecond isThird,
          (stops_cons_iff _ _ _).mpr notFourth⟩
  | case16 first _ _ _ leads second isSecond third later notThird =>
      exact ⟨_, _, _, _, rfl, .secondOfFour leads isSecond, (stops_cons_iff _ _ _).mpr notThird⟩
  | case17 first _ _ _ leads second later notSecond =>
      exact ⟨_, _, _, _, rfl, .firstOfFour leads, (stops_cons_iff _ _ _).mpr notSecond⟩
  | case18 first later large notTwo notThree notFour =>
      exact ⟨_, later, _, _, rfl, .other large notTwo notThree notFour, fun _ _ => rfl⟩

/-! ## Units are not ASCII -/

private theorem isTail_of_lt {byte : UInt8} (small : byte < 0x80) : isTail byte = false := by
  unfold isTail
  grind

private theorem isSecondOfThree_of_lt {byte : UInt8} (small : byte < 0x80) (first : UInt8) :
    isSecondOfThree first byte = false := by
  simp [isSecondOfThree, isTail_of_lt small]

private theorem isSecondOfFour_of_lt {byte : UInt8} (small : byte < 0x80) (first : UInt8) :
    isSecondOfFour first byte = false := by
  simp [isSecondOfFour, isTail_of_lt small]

variable {front later : List UInt8} {piece : Piece} {continues : UInt8 → Bool}

private theorem IsUnit.stops_of_lt
    (isUnit : IsUnit front piece continues) {byte : UInt8} (small : byte < 0x80) :
    continues byte = false := by
  cases isUnit with
  | two => rfl
  | three => rfl
  | four => rfl
  | firstOfTwo => exact isTail_of_lt small
  | firstOfThree => exact isSecondOfThree_of_lt small _
  | firstOfFour => exact isSecondOfFour_of_lt small _
  | secondOfThree => exact isTail_of_lt small
  | secondOfFour => exact isTail_of_lt small
  | thirdOfFour => exact isTail_of_lt small
  | other => rfl

theorem IsUnit.ne_nil (isUnit : IsUnit front piece continues) : front ≠ [] := by
  cases isUnit <;> exact List.cons_ne_nil _ _

theorem IsUnit.not_lt
    (isUnit : IsUnit front piece continues) {byte : UInt8} (member : byte ∈ front) :
    ¬ byte < 0x80 := by
  intro small
  have notTail := isTail_of_lt small
  have notSecondOfThree := isSecondOfThree_of_lt small
  have notSecondOfFour := isSecondOfFour_of_lt small
  cases isUnit <;> grind

/-- The character that stands for a piece. -/
def Piece.text : Piece → Char
  | .character value => value
  | .stray _ => Char.ofNat 0xFFFD

/-- An ASCII character other than the one that stands for no character at all. -/
structure IsPlain (character : Char) : Prop where
  isAscii : IsAscii character
  notNul : character ≠ '\x00'

instance (character : Char) : Decidable (IsPlain character) :=
  decidable_of_iff (IsAscii character ∧ character ≠ '\x00')
    ⟨fun plain => ⟨plain.1, plain.2⟩, fun isPlain => ⟨isPlain.isAscii, isPlain.notNul⟩⟩

private theorem ofNat_ne_of_isPlain
    {character : Char} (isPlain : IsPlain character) {code : Nat} (large : 0x80 ≤ code) :
    Char.ofNat code ≠ character := by
  rintro rfl
  by_cases valid : code.isValidChar
  · have small := isPlain.isAscii
    rw [IsAscii, toNat_ofNat_of_isValidChar valid] at small
    omega
  · have notNul := isPlain.notNul
    rw [Char.ofNat, dif_neg valid] at notNul
    exact notNul rfl

private theorem le_value2 {first : UInt8} (leads : leadsTwo first = true) (second : UInt8) :
    0x80 ≤ value2 first second := by
  simp only [leadsTwo, Bool.and_eq_true, decide_eq_true_eq, UInt8.le_iff_toNat_le] at leads
  simp only [UInt8.reduceToNat] at leads
  unfold value2
  omega

private theorem le_value3
    {first second : UInt8} (leads : leadsThree first = true)
    (isSecond : isSecondOfThree first second = true) (third : UInt8) :
    0x80 ≤ value3 first second third := by
  simp only [leadsThree, isSecondOfThree, isTail, Bool.and_eq_true, Bool.or_eq_true, bne_iff_ne,
    decide_eq_true_eq, UInt8.le_iff_toNat_le, ne_eq, ← UInt8.toNat_inj] at leads isSecond
  simp only [UInt8.reduceToNat] at leads isSecond
  unfold value3
  omega

private theorem le_value4
    {first second : UInt8} (leads : leadsFour first = true)
    (isSecond : isSecondOfFour first second = true) (third fourth : UInt8) :
    0x80 ≤ value4 first second third fourth := by
  simp only [leadsFour, isSecondOfFour, isTail, Bool.and_eq_true, Bool.or_eq_true, bne_iff_ne,
    decide_eq_true_eq, UInt8.le_iff_toNat_le, ne_eq, ← UInt8.toNat_inj] at leads isSecond
  simp only [UInt8.reduceToNat] at leads isSecond
  unfold value4
  omega

/-- No unit is shown as a plain character. -/
theorem IsUnit.text_ne
    (isUnit : IsUnit front piece continues) {character : Char} (isPlain : IsPlain character) :
    piece.text ≠ character := by
  cases isUnit with
  | two leads _ => exact ofNat_ne_of_isPlain isPlain (le_value2 leads _)
  | three leads isSecond _ => exact ofNat_ne_of_isPlain isPlain (le_value3 leads isSecond _)
  | four leads isSecond _ _ => exact ofNat_ne_of_isPlain isPlain (le_value4 leads isSecond _ _)
  | _ => exact ofNat_ne_of_isPlain isPlain (by decide)

/-! ## Texts -/

theorem lossy_eq_map (bytes : List UInt8) : lossy bytes = (pieces bytes).map Piece.text := by
  rw [lossy]
  rfl

@[simp]
theorem lossy_nil : lossy [] = [] := by
  rw [lossy_eq_map, pieces_nil, List.map_nil]

theorem lossy_ascii {first : UInt8} (small : first < 0x80) (rest : List UInt8) :
    lossy (first :: rest) = Char.ofNat first.toNat :: lossy rest := by
  rw [lossy_eq_map, pieces_ascii small, List.map_cons, ← lossy_eq_map]
  rfl

theorem IsUnit.lossy_append
    (isUnit : IsUnit front piece continues) (stops : Stops continues later) :
    lossy (front ++ later) = piece.text :: lossy later := by
  rw [lossy_eq_map, isUnit.pieces_append stops, List.map_cons, ← lossy_eq_map]

/-- Bytes are reached through ASCII bytes and units. -/
theorem bytes_induction
    {motive : List UInt8 → Prop}
    (nil : motive [])
    (ascii : ∀ first rest, first < 0x80 → motive rest → motive (first :: rest))
    (unit : ∀ front later piece continues, IsUnit front piece continues → Stops continues later →
      motive later → motive (front ++ later))
    (bytes : List UInt8) :
    motive bytes := by
  induction length : bytes.length using Nat.strongRecOn generalizing bytes with
  | ind size inductionHypothesis =>
      by_cases begins : ∃ first rest, bytes = first :: rest ∧ first < 0x80
      · obtain ⟨first, rest, rfl, small⟩ := begins
        refine ascii first rest small (inductionHypothesis rest.length ?_ rest rfl)
        rw [← length, List.length_cons]
        exact Nat.lt_succ_self _
      · by_cases empty : bytes = []
        · rw [empty]
          exact nil
        · obtain ⟨front, later, piece, continues, rfl, isUnit, stops⟩ := exists_isUnit begins empty
          refine
            unit front later piece continues isUnit stops
              (inductionHypothesis later.length ?_ later rfl)
          have nonempty := List.length_pos_iff.mpr isUnit.ne_nil
          rw [← length, List.length_append]
          omega

/-- A text is divided in front of an ASCII byte. -/
theorem lossy_append
    {behind : List UInt8} (begins : ∀ first ∈ behind.head?, first < 0x80) (bytes : List UInt8) :
    lossy (bytes ++ behind) = lossy bytes ++ lossy behind := by
  induction bytes using bytes_induction with
  | nil => rw [lossy_nil, List.nil_append, List.nil_append]
  | ascii first rest small inductionHypothesis =>
      rw [List.cons_append, lossy_ascii small, lossy_ascii small, inductionHypothesis,
        List.cons_append]
  | unit front later piece continues isUnit stops inductionHypothesis =>
      have stopsBehind : Stops continues (later ++ behind) := by
        cases later with
        | nil => exact fun next member => isUnit.stops_of_lt (begins next member)
        | cons next later => exact stops
      rw [List.append_assoc, isUnit.lossy_append stops, isUnit.lossy_append stopsBehind,
        inductionHypothesis, List.cons_append]

theorem lossy_append_cons {byte : UInt8} (small : byte < 0x80) (bytes rest : List UInt8) :
    lossy (bytes ++ byte :: rest) = lossy (bytes ++ [byte]) ++ lossy rest := by
  have begins : ∀ later : List UInt8, ∀ first ∈ (byte :: later).head?, first < 0x80 := by
    rintro later first ⟨⟩
    exact small
  rw [lossy_append (begins rest), lossy_append (begins []), lossy_ascii small, lossy_ascii small,
    lossy_nil, List.append_assoc, List.singleton_append]

/-! ## Words -/

private theorem asciiByte_lt {character : Char} (isAscii : IsAscii character) :
    asciiByte character < 0x80 := by
  rw [UInt8.lt_iff_toNat_lt, toNat_asciiByte isAscii]
  exact isAscii

private theorem eq_ofNat_toNat_iff
    {character : Char} (isAscii : IsAscii character) {byte : UInt8} (small : byte < 0x80) :
    character = Char.ofNat byte.toNat ↔ asciiByte character = byte := by
  rw [UInt8.lt_iff_toNat_lt] at small
  constructor
  · rintro rfl
    rw [asciiByte, toNat_ofNat_of_isValidChar (Or.inl (Nat.lt_trans small (by decide)))]
    exact UInt8.ofNat_toNat
  · rintro rfl
    rw [toNat_asciiByte isAscii, Char.ofNat_toNat]

private theorem infix_append_iff_of_not_mem
    {head : UInt8} {rest front : List UInt8} (absent : head ∉ front) (later : List UInt8) :
    head :: rest <:+: front ++ later ↔ head :: rest <:+: later := by
  induction front with
  | nil => rw [List.nil_append]
  | cons byte front inductionHypothesis =>
      rw [List.mem_cons, not_or] at absent
      rw [List.cons_append, List.infix_cons_iff, inductionHypothesis absent.2,
        List.cons_prefix_cons]
      simp [absent.1]

variable {word : List Char}

/-- A plain word stands at the beginning of what is shown if and only if its bytes do. -/
theorem prefix_lossy_iff
    (arePlain : ∀ character ∈ word, IsPlain character) (bytes : List UInt8) :
    word <+: lossy bytes ↔ Text.bytes word <+: bytes := by
  induction bytes using bytes_induction generalizing word with
  | nil =>
      cases word with
      | nil => simp
      | cons character word =>
          rw [List.forall_mem_cons] at arePlain
          rw [bytes_cons_of_isAscii arePlain.1.isAscii]
          simp
  | ascii first rest small inductionHypothesis =>
      cases word with
      | nil => simp
      | cons character word =>
          rw [List.forall_mem_cons] at arePlain
          rw [lossy_ascii small, bytes_cons_of_isAscii arePlain.1.isAscii, List.cons_prefix_cons,
            List.cons_prefix_cons, inductionHypothesis arePlain.2,
            eq_ofNat_toNat_iff arePlain.1.isAscii small]
  | unit front later piece continues isUnit stops _ =>
      cases word with
      | nil => simp
      | cons character word =>
          rw [List.forall_mem_cons] at arePlain
          have absent : asciiByte character ∉ front :=
            fun member => isUnit.not_lt member (asciiByte_lt arePlain.1.isAscii)
          obtain ⟨head, front, rfl⟩ := List.exists_cons_of_ne_nil isUnit.ne_nil
          rw [List.mem_cons, not_or] at absent
          rw [isUnit.lossy_append stops, bytes_cons_of_isAscii arePlain.1.isAscii, List.cons_append,
            List.cons_prefix_cons, List.cons_prefix_cons]
          simp [absent.1, (isUnit.text_ne arePlain.1).symm]

/-- A plain word is found in the text of some bytes exactly if its bytes are found among them. -/
theorem infix_lossy_iff
    (arePlain : ∀ character ∈ word, IsPlain character) (bytes : List UInt8) :
    word <:+: lossy bytes ↔ Text.bytes word <:+: bytes := by
  cases word with
  | nil => simp
  | cons character word =>
      have isPlain := arePlain character List.mem_cons_self
      induction bytes using bytes_induction with
      | nil =>
          rw [bytes_cons_of_isAscii isPlain.isAscii]
          simp
      | ascii first rest small inductionHypothesis =>
          have begins := prefix_lossy_iff arePlain (first :: rest)
          rw [lossy_ascii small] at begins ⊢
          rw [List.infix_cons_iff, List.infix_cons_iff]
          exact or_congr begins inductionHypothesis
      | unit front later piece continues isUnit stops inductionHypothesis =>
          have absent : asciiByte character ∉ front :=
            fun member => isUnit.not_lt member (asciiByte_lt isPlain.isAscii)
          have notHead : ¬ (character = piece.text ∧ word <+: lossy later) :=
            fun head => isUnit.text_ne isPlain head.1.symm
          rw [isUnit.lossy_append stops, List.infix_cons_iff, List.cons_prefix_cons,
            or_iff_right notHead]
          refine inductionHypothesis.trans ?_
          rw [bytes_cons_of_isAscii isPlain.isAscii, infix_append_iff_of_not_mem absent]

end SourceCritic.Text
