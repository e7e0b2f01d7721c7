import Mathlib
import SourceCritic.Proofs.Json.Documents
import SourceCritic.Proofs.Yaml.Scalars
import SourceCritic.Yaml.Scalar

/-!
# Whole numbers in decimal digits

A plain scalar of decimal digits without needless zeros stands for the number that it writes.
-/

namespace SourceCritic.Yaml

theorem isWord_toDigits (size : Nat) : IsWord (Nat.toDigits 10 size) where
  nonempty := Nat.toDigits_ne_nil
  characters digit member := by
    have isDigit := Nat.isDigit_of_mem_toDigits (by decide) (by decide) member
    exact .inr (.inl (Char.isDigit_iff_toNat.mp isDigit))

private theorem digitsFrom?_eq_some
    {digits : List Char} (areDigits : ∀ digit ∈ digits, digit.isDigit = true) (value : Nat) :
    Decimal.digitsFrom? 10 value digits = some (Nat.ofDigitChars 10 digits value) := by
  induction digits generalizing value with
  | nil => rfl
  | cons digit later inductionHypothesis =>
      rw [List.forall_mem_cons] at areDigits
      have small : digit.toNat - '0'.toNat < 10 := by
        have bounds := Char.isDigit_iff_toNat.mp areDigits.1
        have nine : '9'.toNat = '0'.toNat + 9 := rfl
        omega
      rw [Decimal.digitsFrom?, Decimal.digit?, if_pos areDigits.1, if_pos small,
        Nat.ofDigitChars_cons]
      exact inductionHypothesis areDigits.2 _

/-- Digits without a needless zero are no other kind of number. -/
private theorem unsigned?_of_digits
    {head : Char} {rest : List Char} (isDigit : head.isDigit = true)
    (noZero : head = '0' → rest = []) (bound : Nat) :
    unsigned? bound (head :: rest) =
      below? bound (Decimal.digits? 10 (head :: rest)) := by
  have noPlus : head ≠ '+' := by
    rintro rfl
    cases isDigit
  have noMinus : head ≠ '-' := by
    rintro rfl
    cases isDigit
  have unsigned : startsSigned (head :: rest) = false := by
    simp [startsSigned, noPlus, noMinus]
  have body : dropPlus (head :: rest) = head :: rest := by
    unfold dropPlus
    simp [noPlus]
  have single (next : Char) (later : List Char) : head :: rest ≠ '0' :: next :: later := by
    rintro ⟨⟩
    cases noZero rfl
  have needed : hasNeedlessZero (head :: rest) = false := by
    have noSign : dropSign (head :: rest) = head :: rest := by
      unfold dropSign
      simp [noPlus, noMinus]
    rw [hasNeedlessZero, noSign]
    split
    · exact absurd ‹_› (single _ _)
    · rfl
  have decimal : basedDigits? (head :: rest) = none := by
    unfold basedDigits?
    split
    · exact absurd ‹_› (single _ _)
    · exact absurd ‹_› (single _ _)
    · exact absurd ‹_› (single _ _)
    · rfl
  simp [unsigned?, body, unsigned, needed, decimal]

/-- A number in decimal digits is read as itself. -/
theorem unsigned?_toDigits {bound size : Nat} (small : size < bound) :
    unsigned? bound (Nat.toDigits 10 size) = some size := by
  obtain ⟨nonempty, areDigits, noLeadingZero, meaning⟩ := Json.isNatural_toDigits size
  generalize Nat.toDigits 10 size = digits at nonempty areDigits noLeadingZero meaning ⊢
  obtain ⟨head, rest, rfl⟩ := List.exists_cons_of_ne_nil nonempty
  have noZero : head = '0' → rest = [] := by
    rintro rfl
    exact (List.cons.inj (noLeadingZero rfl)).2
  have isNumber : Decimal.digits? 10 (head :: rest) = some size := by
    rw [Decimal.digits?, List.isEmpty_cons, if_neg Bool.false_ne_true,
      digitsFrom?_eq_some areDigits, meaning]
  rw [unsigned?_of_digits (areDigits head List.mem_cons_self) noZero, isNumber]
  simp [below?, small]

/-- A number is not taken for a missing value. -/
theorem isNull_toDigits (size : Nat) : isNull (Nat.toDigits 10 size) = false := by
  have areDigits := (Json.isNatural_toDigits size).areDigits
  have haveLetters :
      ∀ word ∈ ["null", "Null", "NULL", "~"], ∃ letter ∈ word.toList, letter.isDigit = false := by
    simp
  rw [isNull, Bool.eq_false_iff, Ne, List.contains_iff_mem]
  intro isWord
  obtain ⟨letter, isLetter, notDigit⟩ := haveLetters _ isWord
  rw [String.toList_ofList] at isLetter
  rw [areDigits letter isLetter] at notDigit
  cases notDigit

end SourceCritic.Yaml
