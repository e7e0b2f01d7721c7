/-!
# Terminal styles

A styled text stands between the escape sequence that switches its style on and the one that
resets it.  Where the text itself resets the style, it is switched on again.
-/

namespace SourceCritic.Text

inductive Attribute where
  | bold
  | dimmed
  | italic
  | green
  | yellow
  | blue
  | brightRed
  deriving DecidableEq, Repr

def Attribute.code : Attribute → String
  | .bold => "1"
  | .dimmed => "2"
  | .italic => "3"
  | .green => "32"
  | .yellow => "33"
  | .blue => "34"
  | .brightRed => "91"

abbrev Style := List Attribute

def resetSequence : List Char :=
  ['\x1b', '[', '0', 'm']

/-- The sequence that switches a style on. -/
def Style.sequence (style : Style) : List Char :=
  ['\x1b', '['] ++ (";".intercalate (style.map Attribute.code)).toList ++ ['m']

/-- Switches a style on again behind every reset in a text.  `passed` is the number of characters
of a reset that are being passed over. -/
def restyle (sequence : List Char) : (passed : Nat) → List Char → List Char
  | _, [] => []
  | 0, head :: rest =>
      if resetSequence.isPrefixOf (head :: rest) then
        head :: restyle sequence (resetSequence.length - 1) rest
      else
        head :: restyle sequence 0 rest
  | 1, head :: rest => head :: (sequence ++ restyle sequence 0 rest)
  | passed + 2, head :: rest => head :: restyle sequence (passed + 1) rest

/-- A text in a style, or without it if styles are switched off. -/
def styled (enabled : Bool) (style : Style) (text : String) : String :=
  if enabled then
    let sequence := style.sequence
    String.ofList (sequence ++ restyle sequence 0 text.toList ++ resetSequence)
  else
    text

end SourceCritic.Text
