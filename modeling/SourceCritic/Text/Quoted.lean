import SourceCritic.Text.Shown
import SourceCritic.Text.Utf8

/-!
# Quoted texts

A text between double quotes for a reader of error messages.  Quotes and backslashes, and all
characters that would not be seen as themselves, are escaped.
-/

namespace SourceCritic.Text

def hexDigits (value : Nat) : List Char :=
  Nat.toDigits 16 value

/-- The two hexadecimal digits of a byte in upper case. -/
def byteDigits (byte : UInt8) : List Char :=
  [(Nat.digitChar (byte.toNat / 16)).toUpper, (Nat.digitChar (byte.toNat % 16)).toUpper]

def quoteChar (written : Char) : List Char :=
  match written with
  | '\x00' => ['\\', '0']
  | '\t' => ['\\', 't']
  | '\n' => ['\\', 'n']
  | '\r' => ['\\', 'r']
  | '"' => ['\\', '"']
  | '\\' => ['\\', '\\']
  | other =>
      if isShown other then
        [other]
      else
        ['\\', 'u', '{'] ++ hexDigits other.toNat ++ ['}']

/-- How a character stands in a quoted path, in which single quotes are escaped too. -/
def quotePathChar (written : Char) : List Char :=
  if written = '\'' then ['\\', '\''] else quoteChar written

def quoted (text : List Char) : List Char :=
  '"' :: (text.flatMap quoteChar ++ ['"'])

/-- A quoted path.  Bytes that are not UTF-8 are escaped one by one. -/
def quotedPath (bytes : List UInt8) : List Char :=
  let shown := (pieces bytes).flatMap fun piece =>
    match piece with
    | .character value => quotePathChar value
    | .stray bytes => bytes.flatMap fun byte => ['\\', 'x'] ++ byteDigits byte
  '"' :: (shown ++ ['"'])

end SourceCritic.Text
