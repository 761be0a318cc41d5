import Ripple.Toml.Basic

/-!
# Strings of TOML

There are four forms: between quotes or apostrophes, one or three of them. Between quotes
a backslash escapes; between apostrophes nothing does. The forms with three can go over
several lines and hold the mark itself, once or twice in a row; a line break at their
beginning does not count, and neither does one after a backslash, with all blanks and line
breaks that follow it.

`Quoted.write` chooses a form for a text, with a preference for those that need no escape.
-/

namespace Ripple.Toml.Quoted

/-! ## Reading -/

/-- The value of a hexadecimal digit. -/
def hexValue? (c : Char) : Option Nat :=
  if '0' ≤ c ∧ c ≤ '9' then some (c.toNat - 48)
  else if 'a' ≤ c ∧ c ≤ 'f' then some (c.toNat - 87)
  else if 'A' ≤ c ∧ c ≤ 'F' then some (c.toNat - 55)
  else none

/-- The character of a hexadecimal code. -/
def hexCharacter? (digits : List Char) : Option Char := do
  let code ← digits.foldlM (fun n c => (hexValue? c).map (n * 16 + ·)) 0
  if code.isValidChar then some (Char.ofNat code) else none

/-- The character that a letter stands for after a backslash. -/
def unescape? (c : Char) : Option Char :=
  if c = 'b' then some '\x08'
  else if c = 't' then some '\t'
  else if c = 'n' then some '\n'
  else if c = 'f' then some '\x0c'
  else if c = 'r' then some '\r'
  else if c = '"' then some '"'
  else if c = '\\' then some '\\'
  else none

/-- A string between quotes, after the first. `seen` holds what has been read, the last
    character first. -/
def basic (seen : List Char) : List Char → Option (List Char × List Char)
  | [] => none
  | c :: rest =>
    if c = '"' then some (seen.reverse, rest)
    else if c = '\\' then
      match rest with
      | 'u' :: a :: b :: c :: d :: rest => do
        let x ← hexCharacter? [a, b, c, d]
        basic (x :: seen) rest
      | 'U' :: a :: b :: c :: d :: e :: f :: g :: h :: rest => do
        let x ← hexCharacter? [a, b, c, d, e, f, g, h]
        basic (x :: seen) rest
      | e :: rest => do
        let x ← unescape? e
        basic (x :: seen) rest
      | [] => none
    else if isPlain c then basic (c :: seen) rest
    else none

/-- A string between apostrophes, after the first. -/
def literal (seen : List Char) : List Char → Option (List Char × List Char)
  | [] => none
  | c :: rest =>
    if c = '\'' then some (seen.reverse, rest)
    else if isPlain c then literal (c :: seen) rest
    else none

/-- The end of a string at three marks: up to two more belong to the string. -/
def closing (mark : Char) (seen rest : List Char) : List Char × List Char :=
  match rest with
  | a :: b :: more =>
    if a = mark then
      if b = mark then ((mark :: mark :: seen).reverse, more)
      else ((mark :: seen).reverse, b :: more)
    else (seen.reverse, rest)
  | [a] => if a = mark then ((mark :: seen).reverse, []) else (seen.reverse, [a])
  | [] => (seen.reverse, [])

/-- Whether some characters begin with two marks. -/
def twoMarks (mark : Char) : List Char → Bool
  | a :: b :: _ => a = mark && b = mark
  | _ => false

/-- Whether a line ends after blanks. -/
def endsLine (cs : List Char) : Bool := (newline? (skipBlanks cs)).isSome

/-- A string between three quotes, after the first three. While `trimming`, blanks and
    line breaks are passed. -/
def longBasic (trimming : Bool) (seen : List Char) : List Char → Option (List Char × List Char)
  | [] => none
  | c :: rest =>
    if c = '\n' then longBasic trimming (if trimming then seen else '\n' :: seen) rest
    else if c = '\r' then
      match rest with
      | '\n' :: rest => longBasic trimming (if trimming then seen else '\n' :: seen) rest
      | _ => none
    else if trimming && isBlank c then longBasic true seen rest
    else if c = '"' then
      if twoMarks '"' rest then some (closing '"' seen (rest.drop 2))
      else longBasic false ('"' :: seen) rest
    else if c = '\\' then
      if endsLine rest then longBasic true seen rest
      else match rest with
        | 'u' :: a :: b :: c :: d :: rest => do
          let x ← hexCharacter? [a, b, c, d]
          longBasic false (x :: seen) rest
        | 'U' :: a :: b :: c :: d :: e :: f :: g :: h :: rest => do
          let x ← hexCharacter? [a, b, c, d, e, f, g, h]
          longBasic false (x :: seen) rest
        | e :: rest => do
          let x ← unescape? e
          longBasic false (x :: seen) rest
        | [] => none
    else if isPlain c then longBasic false (c :: seen) rest
    else none

/-- A string between three apostrophes, after the first three. -/
def longLiteral (seen : List Char) : List Char → Option (List Char × List Char)
  | [] => none
  | c :: rest =>
    if c = '\n' then longLiteral ('\n' :: seen) rest
    else if c = '\r' then
      match rest with
      | '\n' :: rest => longLiteral ('\n' :: seen) rest
      | _ => none
    else if c = '\'' then
      if twoMarks '\'' rest then some (closing '\'' seen (rest.drop 2))
      else longLiteral ('\'' :: seen) rest
    else if isPlain c then longLiteral (c :: seen) rest
    else none

/-- The text after a line break, if one comes first. -/
def skipNewline (cs : List Char) : List Char := (newline? cs).getD cs

/-- A string of any form. -/
def read (cs : List Char) : Option (List Char × List Char) :=
  match cs with
  | '"' :: rest =>
    if twoMarks '"' rest then longBasic false [] (skipNewline (rest.drop 2)) else basic [] rest
  | '\'' :: rest =>
    if twoMarks '\'' rest then longLiteral [] (skipNewline (rest.drop 2)) else literal [] rest
  | _ => none

/-! ## Writing -/

/-- The forms of a string. -/
inductive Form where
  /-- Between quotes. -/
  | basic
  /-- Between apostrophes. -/
  | literal
  /-- Between three quotes. -/
  | longBasic
  /-- Between three apostrophes. -/
  | longLiteral
deriving DecidableEq, Repr

/-- The longest row of a character. `here` is the length of the row so far. -/
def longestRow (mark : Char) (here : Nat) : List Char → Nat
  | [] => here
  | c :: rest =>
    if c = mark then longestRow mark (here + 1) rest else max here (longestRow mark 0 rest)

/-- Whether a character has to be escaped in every form. -/
def isControl (c : Char) : Bool := (c < ' ' && c ≠ '\t' && c ≠ '\n') || c = '\x7f'

/-- The form in which a text is written. -/
def form (cs : List Char) : Form :=
  let control := cs.any isControl
  let escapes := cs.contains '\\'
  let breaks := cs.contains '\n'
  let apostrophes := longestRow '\'' 0 cs
  let quotes := longestRow '"' 0 cs
  if !control && !escapes && !breaks && quotes == 0 then .basic
  else if !control && !breaks && apostrophes == 0 then .literal
  else if !control && !escapes && quotes ≤ 2 then .longBasic
  else if !control && apostrophes ≤ 2 then .longLiteral
  else if breaks then .longBasic
  else .basic

/-- A digit of a hexadecimal number. -/
def hexDigit (n : Nat) : Char := if n < 10 then Char.ofNat (48 + n) else Char.ofNat (55 + n)

/-- The written form of a character between quotes, other than a quote or a line break. -/
def escape (c : Char) : List Char :=
  if c = '\\' then ['\\', '\\']
  else if c = '\x08' then ['\\', 'b']
  else if c = '\t' then ['\\', 't']
  else if c = '\x0c' then ['\\', 'f']
  else if c = '\r' then ['\\', 'r']
  else if isControl c then ['\\', 'u', '0', '0', hexDigit (c.toNat / 16), hexDigit (c.toNat % 16)]
  else [c]

/-- A text between quotes. -/
def basicBody : List Char → List Char
  | [] => []
  | c :: rest =>
    if c = '"' then '\\' :: '"' :: basicBody rest
    else if c = '\n' then '\\' :: 'n' :: basicBody rest
    else escape c ++ basicBody rest

/-- A text between three quotes. A quote that would be the third in a row is escaped;
    `row` is the number of quotes just before. -/
def longBasicBody (row : Nat) : List Char → List Char
  | [] => []
  | c :: rest =>
    if c = '"' then
      if row < 2 then '"' :: longBasicBody (row + 1) rest else '\\' :: '"' :: longBasicBody 0 rest
    else if c = '\n' then '\n' :: longBasicBody 0 rest
    else escape c ++ longBasicBody 0 rest

/-- The line break at the beginning of a text that has line breaks. -/
def leadingBreak (cs : List Char) : List Char := if cs.contains '\n' then ['\n'] else []

/-- A text as a string. -/
def write (cs : List Char) : List Char :=
  let quotes := ['"', '"', '"']
  let apostrophes := ['\'', '\'', '\'']
  match form cs with
  | .basic => '"' :: basicBody cs ++ ['"']
  | .literal => '\'' :: cs ++ ['\'']
  | .longBasic => quotes ++ leadingBreak cs ++ longBasicBody 0 cs ++ quotes
  | .longLiteral => apostrophes ++ leadingBreak cs ++ cs ++ apostrophes

end Ripple.Toml.Quoted
