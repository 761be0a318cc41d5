import Ripple.Json.Basic
import Ripple.Number.Shortest

/-!
# Compact JSON text

`Json.text` writes a value without blanks, the members of an object in the order in
which they are given. In a string the quote, the backslash and the characters below
the blank are escaped, the latter with a letter where they have one and with four
hexadecimal digits where they have none; nothing else is.
-/

namespace Ripple.Json

/-- A digit of a hexadecimal number. -/
def hexDigit (n : Nat) : Char := if n < 10 then Char.ofNat (48 + n) else Char.ofNat (87 + n)

/-- The written form of a character in a string. -/
def escape (c : Char) : List Char :=
  if c = '"' then ['\\', '"']
  else if c = '\\' then ['\\', '\\']
  else if c = '\x08' then ['\\', 'b']
  else if c = '\x0c' then ['\\', 'f']
  else if c = '\n' then ['\\', 'n']
  else if c = '\r' then ['\\', 'r']
  else if c = '\t' then ['\\', 't']
  else if c.toNat < 32 then
    ['\\', 'u', '0', '0', hexDigit (c.toNat / 16), hexDigit (c.toNat % 16)]
  else [c]

/-- A string between quotes. -/
def quoted (s : String) : List Char := '"' :: s.toList.flatMap escape ++ ['"']

/-- A number as text. -/
def numberChars : JsonNumber → List Char
  | .int n => (toString n).toList
  | .real x => x.text.toList

mutual

/-- The characters of a value. -/
def chars : Json → List Char
  | .null => ['n', 'u', 'l', 'l']
  | .bool true => ['t', 'r', 'u', 'e']
  | .bool false => ['f', 'a', 'l', 's', 'e']
  | .num n => numberChars n
  | .str s => quoted s
  | .arr [] => ['[', ']']
  | .arr (item :: items) => '[' :: (item.chars ++ itemChars items)
  | .obj [] => ['\x7b', '\x7d']
  | .obj (member :: members) => '\x7b' :: (memberChars member ++ moreMemberChars members)
termination_by structural value => value

/-- The items after the first, each after a comma, and the closing bracket. -/
def itemChars : List Json → List Char
  | [] => [']']
  | item :: items => ',' :: (item.chars ++ itemChars items)
termination_by structural items => items

/-- The members after the first, each after a comma, and the closing brace. -/
def moreMemberChars : List (String × Json) → List Char
  | [] => ['\x7d']
  | member :: members => ',' :: (memberChars member ++ moreMemberChars members)
termination_by structural members => members

/-- A key, a colon and the value. -/
def memberChars : String × Json → List Char
  | (key, value) => quoted key ++ ':' :: value.chars
termination_by structural member => member

end

/-- The compact text of a value. -/
def text (value : Json) : String := String.ofList value.chars

end Ripple.Json
