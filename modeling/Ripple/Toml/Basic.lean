/-!
# TOML values

A `Toml` value is what a TOML text says, as far as a configuration can use it: strings,
integers of 64 bits, arrays and tables. Fractions, truth values and dates are read, but
nothing is kept of them.
-/

namespace Ripple

/-- A TOML value. -/
inductive Toml where
  /-- A string. -/
  | string (text : String)
  /-- An integer. -/
  | integer (value : Int)
  /-- A number with a fraction, a truth value, a date or a time. -/
  | other
  /-- An array. -/
  | array (items : List Toml)
  /-- A table, its entries in the order in which they are written. -/
  | table (entries : List (String × Toml))
deriving Repr, BEq, Inhabited

namespace Toml

/-- The greatest integer. -/
def maxInteger : Int := 9223372036854775807

/-- The least integer. -/
def minInteger : Int := -9223372036854775808

/-- Whether a character is a blank within a line. -/
def isBlank (c : Char) : Bool := c = ' ' || c = '\t'

/-- Whether a character can stand anywhere in a line: it is not a control. -/
def isPlain (c : Char) : Bool := c = '\t' || (' ' ≤ c && c ≠ '\x7f')

/-- A text without the blanks before it. -/
def skipBlanks (cs : List Char) : List Char := cs.dropWhile isBlank

/-- What follows a line feed, after a carriage return or without. -/
def newline? : List Char → Option (List Char)
  | '\n' :: rest => some rest
  | '\r' :: '\n' :: rest => some rest
  | _ => none

end Toml

end Ripple
