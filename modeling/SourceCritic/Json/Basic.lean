/-!
# JSON values

Values without fractions: the numbers of a report are counts.  The members of an object keep the
order in which they are listed; `Json.sortedObject` lists them by key.
-/

namespace SourceCritic

inductive Json where
  | null
  | bool (value : Bool)
  | number (value : Int)
  | string (value : String)
  | array (items : List Json)
  | object (members : List (String × Json))
  deriving Inhabited, Repr

namespace Json

/-- Puts a member into a list that is sorted by key, in place of a member with the same key. -/
def insertMember (key : String) (value : Json) :
    List (String × Json) → List (String × Json)
  | [] => [(key, value)]
  | member :: later =>
      if key < member.1 then
        (key, value) :: member :: later
      else if key = member.1 then
        (key, value) :: later
      else
        member :: insertMember key value later

/-- The object with the given members, sorted by key.  Of members with the same key the last one
counts. -/
def sortedObject (members : List (String × Json)) : Json :=
  .object (members.foldl (fun sorted member => insertMember member.1 member.2 sorted) [])

theorem sortedObject_pair
    {first second : String} (notLess : ¬ second < first) (differs : second ≠ first)
    (firstValue secondValue : Json) :
    sortedObject [(first, firstValue), (second, secondValue)] =
      .object [(first, firstValue), (second, secondValue)] := by
  rw [sortedObject, List.foldl_cons, List.foldl_cons, List.foldl_nil, insertMember, insertMember,
    if_neg notLess, if_neg differs, insertMember]

def count (value : Nat) : Json :=
  .number (Int.ofNat value)

end Json

end SourceCritic
