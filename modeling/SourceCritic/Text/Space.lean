/-!
# White space

The characters with the Unicode property `White_Space`, and the texts that hold nothing else.
-/

namespace SourceCritic.Text

/-- The ranges of code points, both ends included, that are white space. -/
def spaceRanges : List (Nat × Nat) :=
  [(0x0009, 0x000D), (0x0020, 0x0020), (0x0085, 0x0085), (0x00A0, 0x00A0), (0x1680, 0x1680),
    (0x2000, 0x200A), (0x2028, 0x2029), (0x202F, 0x202F), (0x205F, 0x205F), (0x3000, 0x3000)]

def isSpace (tested : Char) : Bool :=
  spaceRanges.any fun range => range.1 ≤ tested.toNat && tested.toNat ≤ range.2

/-- Whether a text is empty or made of white space only. -/
def isBlank (text : List Char) : Bool :=
  text.all isSpace

@[simp]
theorem isBlank_nil : isBlank [] = true :=
  rfl

@[simp]
theorem isBlank_cons (head : Char) (rest : List Char) :
    isBlank (head :: rest) = (isSpace head && isBlank rest) :=
  rfl

end SourceCritic.Text
