/-!
# Severity

How bad a violation is.  The three grades are ordered `gentle < moderate < brutal`.
-/

namespace SourceCritic

inductive Severity where
  | gentle
  | moderate
  | brutal
  deriving DecidableEq, Repr

namespace Severity

/-- The grade as a number, larger for a worse grade. -/
def rank : Severity → Nat
  | .gentle => 0
  | .moderate => 1
  | .brutal => 2

def word : Severity → String
  | .gentle => "gentle"
  | .moderate => "moderate"
  | .brutal => "brutal"

def ofWord? : String → Option Severity
  | "gentle" => some .gentle
  | "moderate" => some .moderate
  | "brutal" => some .brutal
  | _ => none

instance : LE Severity where
  le first second := first.rank ≤ second.rank

instance : LT Severity where
  lt first second := first.rank < second.rank

instance (first second : Severity) : Decidable (first ≤ second) :=
  inferInstanceAs (Decidable (first.rank ≤ second.rank))

instance (first second : Severity) : Decidable (first < second) :=
  inferInstanceAs (Decidable (first.rank < second.rank))

def order (first second : Severity) : Ordering :=
  compare first.rank second.rank

def worse (first second : Severity) : Severity :=
  if first ≤ second then second else first

/-- The worst grade of a list, if it has any. -/
def worst? : List Severity → Option Severity
  | [] => none
  | first :: later => some (later.foldl worse first)

@[simp]
theorem ofWord?_word (severity : Severity) : ofWord? severity.word = some severity := by
  cases severity <;> rfl

theorem rank_injective {first second : Severity}
    (equal : first.rank = second.rank) : first = second := by
  cases first <;> cases second <;> simp_all [rank]

end Severity

end SourceCritic
