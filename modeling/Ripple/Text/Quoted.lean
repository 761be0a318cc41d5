import Ripple.Text.Visible

/-!
# Quoted text

`quoted` writes a text between double quotes, so that a message shows where it begins
and ends: quotes and backslashes are escaped, and so is what would not be visible.
`quotedPath` does the same for a path, which also escapes single quotes.
-/

namespace Ripple.Text

/-- The hexadecimal digits of a number, in lower case. -/
def hexDigits (n : Nat) : List Char := Nat.toDigits 16 n

/-- The written form of a character other than a quote. -/
def escapeInvisible (c : Char) : List Char :=
  if c = '\x00' then ['\\', '0']
  else if c = '\t' then ['\\', 't']
  else if c = '\n' then ['\\', 'n']
  else if c = '\r' then ['\\', 'r']
  else if c = '\\' then ['\\', '\\']
  else if isVisible c then [c]
  else ['\\', 'u', '\x7b'] ++ hexDigits c.toNat ++ ['\x7d']

/-- A text between double quotes, in which the given quotes are escaped. -/
def quotedWith (quotes : List Char) (text : String) : String :=
  let escape (c : Char) := if c ∈ quotes then ['\\', c] else escapeInvisible c
  String.ofList ('"' :: text.toList.flatMap escape ++ ['"'])

/-- A text between double quotes. -/
def quoted (text : String) : String := quotedWith ['"'] text

/-- A path between double quotes. -/
def quotedPath (path : String) : String := quotedWith ['"', '\''] path

end Ripple.Text
