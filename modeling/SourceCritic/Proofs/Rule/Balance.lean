import Mathlib
import SourceCritic.Proofs.Rule.Bodies
import SourceCritic.Proofs.Text.Bytes

/-!
# Where bodies end

A body ends at the first closing brace that leaves as many opening as closing braces between the
beginning of the declaration and itself.  That brace is looked for among the bytes of a text, and
the depth of the braces is a number of 64 bits; neither makes a difference, because a brace is a
single byte that is part of no other character, and because a text has fewer braces than bytes.

Where no brace is closed before the first one is opened, the body ends at the brace that closes that
first one.
-/

namespace SourceCritic.Rule.Functions

open Text (bytes asciiByte bytes_append)

theorem bytes_closing (rest : List Char) :
    bytes ('}' :: rest) = asciiByte '}' :: bytes rest :=
  Text.bytes_cons_of_isAscii (by decide) rest

/-! ## Balanced braces -/

/-- A closing brace among the bytes of a text up to which, from `start` on and with itself, there
are as many opening as closing braces. -/
structure IsBalanced (encoded : List UInt8) (start stop : Nat) : Prop where
  reached : start ≤ stop
  closing : encoded[stop]? = some (asciiByte '}')
  balanced :
    ((encoded.take (stop + 1)).drop start).count (asciiByte '{') =
      ((encoded.take (stop + 1)).drop start).count (asciiByte '}')

/-- The first such closing brace. -/
structure EndsBody (encoded : List UInt8) (start stop : Nat) : Prop where
  isBalanced : IsBalanced encoded start stop
  first : ∀ other, IsBalanced encoded start other → stop ≤ other

private theorem count_bytes_closed_iff (front : List Char) :
    (bytes (front ++ ['}'])).count (asciiByte '{') =
        (bytes (front ++ ['}'])).count (asciiByte '}') ↔
      level front = 1 := by
  rw [Text.count_bytes (by decide), Text.count_bytes (by decide), level]
  simp only [List.count_append, List.count_singleton]
  have different : ('}' == '{') = false := by
    decide
  simp only [different, Bool.false_eq_true, if_false, beq_self_eq_true, if_true]
  omega

private theorem take_drop_bytes (before front rest : List Char) :
    ((bytes (before ++ (front ++ '}' :: rest))).take ((bytes (before ++ front)).length + 1)).drop
        (bytes before).length =
      bytes (front ++ ['}']) := by
  have regrouped :
      before ++ (front ++ '}' :: rest) = before ++ (front ++ ['}']) ++ rest := by
    simp
  have counted :
      (bytes (before ++ front)).length + 1 = (bytes (before ++ (front ++ ['}']))).length := by
    simp only [bytes_append, bytes_closing, Text.bytes_nil, List.length_append,
      List.length_singleton]
    omega
  rw [regrouped, counted, bytes_append _ rest, List.take_left, bytes_append, List.drop_left]

/-- The bytes at which braces are balanced are the closing braces of the text behind which the level
is back at zero. -/
theorem isBalanced_iff (before tail : List Char) (stop : Nat) :
    IsBalanced (bytes (before ++ tail)) (bytes before).length stop ↔
      ∃ front rest,
        tail = front ++ '}' :: rest ∧ level front = 1 ∧
          stop = (bytes (before ++ front)).length := by
  constructor
  · rintro ⟨reached, closing, balanced⟩
    obtain ⟨passed, rest, division, rfl⟩ :=
      (Text.getElem?_bytes_eq_asciiByte_iff (by decide) _ _).mp closing
    obtain ⟨front, rfl, rfl⟩ := Text.exists_of_length_bytes_le division reached
    rw [take_drop_bytes, count_bytes_closed_iff] at balanced
    exact ⟨front, rest, rfl, balanced, rfl⟩
  · rintro ⟨front, rest, rfl, closed, rfl⟩
    refine ⟨?_, ?_, ?_⟩
    · rw [bytes_append, List.length_append]
      exact Nat.le_add_right _ _
    · rw [Text.getElem?_bytes_eq_asciiByte_iff (by decide)]
      exact ⟨before ++ front, rest, by simp, rfl⟩
    · rw [take_drop_bytes, count_bytes_closed_iff]
      exact closed

/-- A body ends in front of the first brace up to which the braces are balanced. -/
theorem endsBody_iff (before tail : List Char) (stop : Nat) :
    EndsBody (bytes (before ++ tail)) (bytes before).length stop ↔
      ∃ body, body? tail = some body ∧ stop = (bytes (before ++ body)).length := by
  simp only [body?_eq_some_iff]
  constructor
  · rintro ⟨isBalanced, first⟩
    obtain ⟨body, rest, rfl, closed, rfl⟩ := (isBalanced_iff before tail stop).mp isBalanced
    refine ⟨body, ⟨rest, rfl, closed, ?_⟩, rfl⟩
    rintro front later rfl closedEarlier
    have earlier :=
      first _ ((isBalanced_iff before _ _).mpr ⟨front, later ++ '}' :: rest, by simp,
        closedEarlier, rfl⟩)
    simp only [bytes_append, bytes_closing, List.length_append, List.length_cons] at earlier
    omega
  · rintro ⟨body, ⟨rest, rfl, closed, earliest⟩, rfl⟩
    refine ⟨(isBalanced_iff before _ _).mpr ⟨body, rest, rfl, closed, rfl⟩, ?_⟩
    intro other isBalanced
    obtain ⟨front, after, division, closedToo, rfl⟩ := (isBalanced_iff before _ _).mp isBalanced
    -- If the other brace came first, it would be one within the body.
    by_contra! sooner
    simp only [bytes_append, List.length_append] at sooner
    obtain ⟨between, rfl, behind⟩ :=
      Text.exists_of_length_bytes_le division.symm (by omega)
    cases between with
    | nil => simp at sooner
    | cons head later =>
        injection behind with isClosing _
        exact earliest front later (by rw [isClosing]) closedToo

/-- A body ends at the first byte at which braces are balanced. -/
theorem body?_eq_some_iff_endsBody (before tail body : List Char) :
    body? tail = some body ↔
      ∃ stop,
        EndsBody (bytes (before ++ tail)) (bytes before).length stop ∧
          bytes body = ((bytes (before ++ tail)).take stop).drop (bytes before).length := by
  have slice :
      ∀ found, body? tail = some found →
        ((bytes (before ++ tail)).take (bytes (before ++ found)).length).drop
          (bytes before).length = bytes found := by
    intro found isBody
    obtain ⟨rest, rfl, _⟩ := (body?_eq_some_iff tail found).mp isBody
    rw [← List.append_assoc, bytes_append _ ('}' :: rest), List.take_left, bytes_append,
      List.drop_left]
  constructor
  · intro isBody
    exact
      ⟨_, (endsBody_iff before tail _).mpr ⟨body, isBody, rfl⟩, (slice body isBody).symm⟩
  · rintro ⟨stop, ends, sliced⟩
    obtain ⟨found, isBody, rfl⟩ := (endsBody_iff before tail stop).mp ends
    rw [slice found isBody] at sliced
    rw [Text.bytes_inj sliced]
    exact isBody

/-- Without a byte at which braces are balanced there is no body. -/
theorem body?_eq_none_iff_not_isBalanced (before tail : List Char) :
    body? tail = none ↔
      ∀ stop, ¬ IsBalanced (bytes (before ++ tail)) (bytes before).length stop := by
  constructor
  · intro nothing stop isBalanced
    -- Of the bytes at which braces are balanced, the first one would end a body.
    classical
    have exists_balanced :
        ∃ stop, IsBalanced (bytes (before ++ tail)) (bytes before).length stop :=
      ⟨stop, isBalanced⟩
    have ends :
        EndsBody (bytes (before ++ tail)) (bytes before).length (Nat.find exists_balanced) :=
      ⟨Nat.find_spec exists_balanced, fun other => Nat.find_min' exists_balanced⟩
    obtain ⟨body, isBody, _⟩ := (endsBody_iff before tail _).mp ends
    rw [nothing] at isBody
    cases isBody
  · intro never
    rw [Option.eq_none_iff_forall_ne_some]
    intro body isBody
    obtain ⟨stop, ends, _⟩ := (body?_eq_some_iff_endsBody before tail body).mp isBody
    exact never stop ends.isBalanced

/-! ## The search through bytes -/

/-- How the search for the end of a body ends.  It overflows if the depth of the braces leaves the
range of a signed number of 64 bits. -/
inductive Search where
  | found (stop : Nat)
  | exhausted
  | overflowed
  deriving DecidableEq, Repr

/-- Searches bytes for the end of a body, with a depth of 64 bits. -/
def searchBytes :
    (depth : Int) → (opened : Bool) → (position : Nat) → (encoded : List UInt8) → Search
  | _, _, _, [] => .exhausted
  | depth, opened, position, head :: rest =>
      if head = asciiByte '{' then
        if depth + 1 < 2 ^ 63 then
          searchBytes (depth + 1) true (position + 1) rest
        else
          .overflowed
      else if head = asciiByte '}' then
        if -2 ^ 63 ≤ depth - 1 then
          if depth - 1 = 0 ∧ opened then
            .found position
          else
            searchBytes (depth - 1) opened (position + 1) rest
        else
          .overflowed
      else
        searchBytes depth opened (position + 1) rest

private theorem searchBytes_skip
    {skipped : List UInt8}
    (noBrace : ∀ byte ∈ skipped, byte ≠ asciiByte '{' ∧ byte ≠ asciiByte '}')
    (depth : Int) (opened : Bool) (position : Nat) (rest : List UInt8) :
    searchBytes depth opened position (skipped ++ rest) =
      searchBytes depth opened (position + skipped.length) rest := by
  induction skipped generalizing position with
  | nil => rfl
  | cons head later inductionHypothesis =>
      rw [List.forall_mem_cons] at noBrace
      rw [List.cons_append, searchBytes, if_neg noBrace.1.1, if_neg noBrace.1.2,
        inductionHypothesis noBrace.2, List.length_cons]
      congr 1
      omega

/-- The characters that have been passed are counted apart from the search. -/
theorem bodyLength?_eq_map (depth : Int) (opened : Bool) (length : Nat) (text : List Char) :
    bodyLength? depth opened length text =
      (bodyLength? depth opened 0 text).map (length + ·) := by
  induction text generalizing depth opened length with
  | nil => rfl
  | cons head rest inductionHypothesis =>
      have step :
          ∀ depth opened,
            bodyLength? depth opened (length + 1) rest =
              (bodyLength? depth opened (0 + 1) rest).map (length + ·) := by
        intro depth opened
        rw [inductionHypothesis depth opened (length + 1),
          inductionHypothesis depth opened (0 + 1), Option.map_map]
        congr 1
        funext found
        simp only [Function.comp_apply]
        omega
      rw [bodyLength?, bodyLength?]
      split
      · exact step _ _
      split
      · split
        · rfl
        · exact step _ _
      · exact step _ _

/-- How a search through the bytes of a text ends that finds an end behind a number of
characters. -/
def Search.ofLength? (position : Nat) (text : List Char) : Option Nat → Search
  | none => .exhausted
  | some length => .found (position + (bytes (text.take length)).length)

private theorem Search.ofLength?_cons
    (position : Nat) (head : Char) (rest : List Char) (length? : Option Nat) :
    ofLength? position (head :: rest) (length?.map (0 + 1 + ·)) =
      ofLength? (position + (String.utf8EncodeChar head).length) rest length? := by
  cases length? with
  | none => rfl
  | some length =>
      simp only [Option.map_some, ofLength?, Nat.zero_add, Nat.add_comm 1 length,
        List.take_succ_cons, Text.bytes_cons, List.length_append, Nat.add_assoc]

/-- Searching the bytes of a text comes to the same as searching its characters, and does not
overflow, if the depth and the bytes together are few enough. -/
theorem searchBytes_bytes
    (depth : Int) (opened : Bool) (position : Nat) (text : List Char)
    (small : depth.natAbs + (bytes text).length < 2 ^ 63) :
    searchBytes depth opened position (bytes text) =
      .ofLength? position text (bodyLength? depth opened 0 text) := by
  induction text generalizing depth opened position with
  | nil => rw [Text.bytes_nil, searchBytes, bodyLength?, Search.ofLength?]
  | cons head rest inductionHypothesis =>
      have fewer : (bytes rest).length + 1 ≤ (bytes (head :: rest)).length := by
        have positive : 0 < (String.utf8EncodeChar head).length :=
          List.length_pos_of_ne_nil String.utf8EncodeChar_ne_nil
        rw [Text.bytes_cons, List.length_append]
        omega
      -- Behind the first character the search goes on, where it has one byte less to pass.
      have onward :
          ∀ further opened, further.natAbs ≤ depth.natAbs + 1 →
            searchBytes further opened (position + (String.utf8EncodeChar head).length)
                (bytes rest) =
              .ofLength? position (head :: rest) (bodyLength? further opened (0 + 1) rest) := by
        intro further opened near
        rw [inductionHypothesis further opened _ (by omega), bodyLength?_eq_map _ _ (0 + 1),
          Search.ofLength?_cons]
      rw [bodyLength?]
      by_cases isOpening : head = '{'
      · subst isOpening
        rw [if_pos rfl, ← onward _ _ (by omega), Text.bytes_cons_of_isAscii (by decide),
          searchBytes, if_pos rfl, if_pos (by omega), Text.utf8EncodeChar_of_isAscii (by decide),
          List.length_singleton]
      · rw [if_neg isOpening]
        by_cases isClosing : head = '}'
        · subst isClosing
          rw [if_pos rfl, bytes_closing, searchBytes, if_neg (by decide), if_pos rfl,
            if_pos (by omega)]
          split
          · simp [Search.ofLength?]
          · rw [← onward _ _ (by omega), Text.utf8EncodeChar_of_isAscii (by decide),
              List.length_singleton]
        · have noBrace :
              ∀ byte ∈ String.utf8EncodeChar head,
                byte ≠ asciiByte '{' ∧ byte ≠ asciiByte '}' := by
            intro byte member
            constructor
            · rintro rfl
              exact isOpening ((Text.asciiByte_mem_utf8EncodeChar_iff (by decide) head).mp member)
            · rintro rfl
              exact isClosing ((Text.asciiByte_mem_utf8EncodeChar_iff (by decide) head).mp member)
          rw [if_neg isClosing, ← onward _ _ (by omega), Text.bytes_cons, searchBytes_skip noBrace]

/-- Whether there has been an opening brace makes no difference while none is open. -/
private theorem bodyLength?_opened
    {depth : Int} (notOpen : depth ≤ 0) (opened : Bool) (length : Nat) (text : List Char) :
    bodyLength? depth opened length text = bodyLength? depth false length text := by
  induction text generalizing depth length with
  | nil => rfl
  | cons head rest inductionHypothesis =>
      rw [bodyLength?, bodyLength?]
      split
      · rfl
      split
      · rw [if_neg (by omega), if_neg (by omega)]
        exact inductionHypothesis (by omega) _
      · exact inductionHypothesis notOpen _

/-! ## The brace that closes the first one -/

private theorem level_eq_zero_of_not_mem
    {text : List Char} (noOpening : '{' ∉ text) (noClosing : '}' ∉ text) : level text = 0 := by
  rw [level, List.count_eq_zero_of_not_mem noOpening, List.count_eq_zero_of_not_mem noClosing]
  rfl

/-- The level falls by one at a time, so it passes one before it falls to zero. -/
theorem exists_closing_of_level_le
    {passed text : List Char}
    (isOpen : 0 < level passed) (fallen : level (passed ++ text) ≤ 0) :
    ∃ inner later, text = inner ++ '}' :: later ∧ level (passed ++ inner) = 1 := by
  induction text generalizing passed with
  | nil =>
      rw [List.append_nil] at fallen
      omega
  | cons head rest inductionHypothesis =>
      by_cases stillOpen : 0 < level (passed ++ [head])
      · obtain ⟨inner, later, rfl, closed⟩ :=
          inductionHypothesis stillOpen (by simpa using fallen)
        exact ⟨head :: inner, later, rfl, by simpa using closed⟩
      · have isClosing : head = '}' := by
          by_contra notClosing
          rw [level_append] at stillOpen
          simp only [level, List.count_singleton, beq_iff_eq, notClosing, if_false] at stillOpen
          rw [level] at isOpen
          omega
        subst isClosing
        have lowered : level ['}'] = -1 :=
          rfl
        rw [level_append, lowered] at stillOpen
        refine ⟨[], rest, rfl, ?_⟩
        rw [List.append_nil]
        omega

/-- What stands between an opening brace and the one that closes it: all the way a brace is open. -/
structure IsClosed (rest inner : List Char) : Prop where
  closing : ∃ after, rest = inner ++ '}' :: after
  balanced : level ('{' :: inner) = 1
  positive : ∀ front, front <+: inner → 0 < level ('{' :: front)

section FirstBrace

variable {head : List Char} (noOpening : '{' ∉ head) (noClosing : '}' ∉ head)

include noOpening noClosing

theorem level_behind_first (inner : List Char) :
    level (head ++ '{' :: inner) = level ('{' :: inner) := by
  rw [level_append, level_eq_zero_of_not_mem noOpening noClosing, Int.zero_add]

/-- If no brace is closed before the first one is opened, the body ends where that one is closed. -/
theorem body?_eq_some_iff_isClosed (rest body : List Char) :
    body? (head ++ '{' :: rest) = some body ↔
      ∃ inner, body = head ++ '{' :: inner ∧ IsClosed rest inner := by
  rw [body?_eq_some_iff]
  constructor
  · rintro ⟨after, division, closed, earliest⟩
    rcases List.append_eq_append_iff.mp division with
      ⟨between, rfl, behind⟩ | ⟨between, rfl, _⟩
    · cases between with
      | nil => exact absurd (List.cons.inj behind).1 (by decide)
      | cons first inner =>
          injection behind with isOpening behind
          subst isOpening
          rw [List.nil_append, level_behind_first noOpening noClosing] at closed
          refine ⟨inner, rfl, ⟨after, behind⟩, closed, ?_⟩
          rintro front ⟨later, rfl⟩
          by_contra notPositive
          -- A brace that closes the first one would stand within the body.
          obtain ⟨nested, between, rfl, closedEarlier⟩ :=
            exists_closing_of_level_le (by decide : 0 < level ['{']) (Int.not_lt.mp notPositive)
          refine earliest (head ++ '{' :: nested) (between ++ later) (by simp) ?_
          rw [List.nil_append, level_behind_first noOpening noClosing]
          exact closedEarlier
    · rw [List.nil_append] at closed
      exact absurd (List.mem_append_left _ (mem_of_level_eq_one closed)) noOpening
  · rintro ⟨inner, rfl, ⟨after, rfl⟩, balanced, positive⟩
    refine ⟨after, by simp, ?_, ?_⟩
    · rw [List.nil_append, level_behind_first noOpening noClosing]
      exact balanced
    · intro front later division closedEarlier
      rcases List.append_eq_append_iff.mp division with
        ⟨between, rfl, behind⟩ | ⟨between, rfl, behind⟩
      · cases between with
        | nil => exact absurd (List.cons.inj behind).1 (by decide)
        | cons first nested =>
            injection behind with isOpening behind
            subst isOpening behind
            rw [List.nil_append, level_behind_first noOpening noClosing] at closedEarlier
            have lowered : level ('{' :: (nested ++ ['}'])) = level ('{' :: nested) - 1 := by
              rw [← List.cons_append, level_append]
              rfl
            have stillOpen := positive (nested ++ ['}']) ⟨later, by simp⟩
            omega
      · cases between with
        | nil => exact absurd (List.cons.inj behind).1 (by decide)
        | cons first nested =>
            injection behind with isClosing _
            subst isClosing
            exact noClosing (by simp)

/-- There is no body if and only if the first brace stays open to the end of the text. -/
theorem body?_eq_none_iff_stays_open (rest : List Char) :
    body? (head ++ '{' :: rest) = none ↔
      ∀ front, front <+: rest → 0 < level ('{' :: front) := by
  constructor
  · rintro nothing front ⟨later, rfl⟩
    by_contra notPositive
    obtain ⟨inner, between, rfl, closed⟩ :=
      exists_closing_of_level_le (by decide : 0 < level ['{']) (Int.not_lt.mp notPositive)
    have isBalanced :=
      (isBalanced_iff [] (head ++ '{' :: ((inner ++ '}' :: between) ++ later)) _).mpr
        ⟨head ++ '{' :: inner, between ++ later, by simp,
          (level_behind_first noOpening noClosing inner).trans closed, rfl⟩
    exact (body?_eq_none_iff_not_isBalanced [] _).mp nothing _ isBalanced
  · intro stays
    rw [Option.eq_none_iff_forall_ne_some]
    intro body isBody
    obtain ⟨inner, _, ⟨after, rfl⟩, balanced, _⟩ :=
      (body?_eq_some_iff_isClosed noOpening noClosing rest body).mp isBody
    have lowered : level ('{' :: (inner ++ ['}'])) = level ('{' :: inner) - 1 := by
      rw [← List.cons_append, level_append]
      rfl
    have stillOpen := stays (inner ++ ['}']) ⟨after, by simp⟩
    omega

end FirstBrace

/-! ## Bodies as a whole -/

/-- For a declaration that stands behind `before`: its body reaches up to the first byte at which
braces are balanced, and there is none if there is no such byte, whether or not it is asked for an
opening brace.  Such a byte begins a character, and the depth does not overflow.  If no brace is
closed before the first one is opened, the body ends where that one is closed. -/
theorem body?_reaches_first_balance (before tail : List Char) :
    (∀ body, body? tail = some body ↔
      ∃ stop,
        EndsBody (bytes (before ++ tail)) (bytes before).length stop ∧
          bytes body = ((bytes (before ++ tail)).take stop).drop (bytes before).length) ∧
    (body? tail = none ↔
      ∀ stop, ¬ IsBalanced (bytes (before ++ tail)) (bytes before).length stop) ∧
    (∀ opened, (bodyLength? 0 opened 0 tail).map tail.take = body? tail) ∧
    (∀ stop, IsBalanced (bytes (before ++ tail)) (bytes before).length stop →
      ∃ front rest,
        before ++ tail = front ++ '}' :: rest ∧ (bytes front).length = stop) ∧
    ((bytes (before ++ tail)).length < 2 ^ 63 →
      searchBytes 0 false (bytes before).length
          ((bytes (before ++ tail)).drop (bytes before).length) =
        (body? tail).elim .exhausted fun body => .found (bytes (before ++ body)).length) ∧
    ∀ head rest, tail = head ++ '{' :: rest → '{' ∉ head → '}' ∉ head →
      (∀ body, body? tail = some body ↔
        ∃ inner, body = head ++ '{' :: inner ∧ IsClosed rest inner) ∧
      (body? tail = none ↔ ∀ front, front <+: rest → 0 < level ('{' :: front)) := by
  refine
    ⟨body?_eq_some_iff_endsBody before tail, body?_eq_none_iff_not_isBalanced before tail, ?_, ?_,
      ?_, ?_⟩
  · intro opened
    rw [bodyLength?_opened (Int.le_refl 0), body?]
  · intro stop isBalanced
    obtain ⟨front, rest, rfl, _, rfl⟩ := (isBalanced_iff before tail stop).mp isBalanced
    exact ⟨before ++ front, rest, by simp, rfl⟩
  · intro small
    have shorter : (bytes tail).length < 2 ^ 63 := by
      rw [bytes_append, List.length_append] at small
      omega
    rw [bytes_append, List.drop_left, searchBytes_bytes 0 false _ tail (by simpa using shorter),
      body?]
    cases bodyLength? 0 false 0 tail with
    | none => rfl
    | some length => simp [Search.ofLength?, bytes_append]
  · rintro head rest rfl noOpening noClosing
    exact
      ⟨body?_eq_some_iff_isClosed noOpening noClosing rest,
        body?_eq_none_iff_stays_open noOpening noClosing rest⟩

/-- Behind a character of two bytes the body ends at byte 11, at the brace that closes the first
one. -/
theorem body?_reaches_first_balance_accented :
    (bytes ("é".toList ++ "f() \x7bé\x7b\x7d\x7d\x7d".toList)).length < 2 ^ 63 ∧
      searchBytes 0 false (bytes "é".toList).length
          ((bytes ("é".toList ++ "f() \x7bé\x7b\x7d\x7d\x7d".toList)).drop
            (bytes "é".toList).length) =
        .found 11 ∧
      "f() \x7bé\x7b\x7d\x7d\x7d".toList = "f() ".toList ++ '{' :: "é\x7b\x7d\x7d\x7d".toList ∧
        IsClosed "é\x7b\x7d\x7d\x7d".toList "é\x7b\x7d".toList := by
  obtain ⟨_, _, _, _, searched, closes⟩ :=
    body?_reaches_first_balance "é".toList "f() \x7bé\x7b\x7d\x7d\x7d".toList
  have isBody : body? "f() \x7bé\x7b\x7d\x7d\x7d".toList = some "f() \x7bé\x7b\x7d".toList := by
    decide
  have small : (bytes ("é".toList ++ "f() \x7bé\x7b\x7d\x7d\x7d".toList)).length < 2 ^ 63 := by
    rw [Text.bytes_eq_flatMap]
    decide
  have stop : (bytes ("é".toList ++ "f() \x7bé\x7b\x7d".toList)).length = 11 := by
    rw [Text.bytes_eq_flatMap]
    decide
  obtain ⟨whenFound, _⟩ :=
    closes "f() ".toList "é\x7b\x7d\x7d\x7d".toList rfl (by decide) (by decide)
  obtain ⟨inner, shape, isClosed⟩ := (whenFound _).mp isBody
  obtain rfl : "é\x7b\x7d".toList = inner := by
    simpa using shape
  refine ⟨small, ?_, rfl, isClosed⟩
  rw [searched small, isBody, Option.elim_some, stop]

end SourceCritic.Rule.Functions
