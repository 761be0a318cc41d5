/-!
# Symbols of a query text

A query text is divided into marks, words and quoted strings. Between quotes a quote
is written twice. The words `AND`, `OR` and `NOT` are operators unless they are quoted.
A character that is none of these makes the text unfit.
-/

namespace Ripple.FullText

/-- An operator between two queries. -/
inductive Operator where
  /-- Both must match. -/
  | and
  /-- One must match. -/
  | or
  /-- The first must match and the second must not. -/
  | not
deriving DecidableEq, Repr

/-- A symbol of a query text. -/
inductive Symbol where
  /-- `(` -/
  | openParen
  /-- `)` -/
  | closeParen
  /-- An opening brace. -/
  | openBrace
  /-- A closing brace. -/
  | closeBrace
  /-- `:` -/
  | colon
  /-- `,` -/
  | comma
  /-- `+` -/
  | plus
  /-- `*` -/
  | star
  /-- `-` -/
  | minus
  /-- `^` -/
  | caret
  /-- An operator. -/
  | operator (op : Operator)
  /-- A word, or what stands between quotes. -/
  | word (text : List Char) (isQuoted : Bool)
deriving DecidableEq, Repr

namespace Symbol

/-- The mark of a character. -/
def ofMark? (c : Char) : Option Symbol :=
  if c = '(' then some .openParen
  else if c = ')' then some .closeParen
  else if c = '\x7b' then some .openBrace
  else if c = '\x7d' then some .closeBrace
  else if c = ':' then some .colon
  else if c = ',' then some .comma
  else if c = '+' then some .plus
  else if c = '*' then some .star
  else if c = '-' then some .minus
  else if c = '^' then some .caret
  else none

/-- Whether a character can stand in a word without quotes. -/
def isWordCharacter (c : Char) : Bool :=
  c.isAlphanum || c = '_' || c = '\x1a' || 0x80 ≤ c.toNat

/-- Whether a character divides symbols. -/
def isBlank (c : Char) : Bool := c = ' ' || c = '\t' || c = '\n' || c = '\r'

/-- The symbol of a word without quotes. -/
def ofWord (text : List Char) : Symbol :=
  if text = ['A', 'N', 'D'] then .operator .and
  else if text = ['O', 'R'] then .operator .or
  else if text = ['N', 'O', 'T'] then .operator .not
  else .word text false

/-- What has been read of the symbol at which a reader stands; characters are kept the
    last one first. -/
inductive Partial where
  /-- Nothing. -/
  | nothing
  /-- The beginning of a word. -/
  | word (seen : List Char)
  /-- The beginning of a string, after its quote. -/
  | string (seen : List Char)
  /-- A string up to a quote that may end it. -/
  | closed (seen : List Char)

/-- What a character begins. -/
def start (c : Char) : Option (List Symbol × Partial) :=
  if isBlank c then some ([], .nothing)
  else if c = '"' then some ([], .string [])
  else if isWordCharacter c then some ([], .word [c])
  else (ofMark? c).map fun mark => ([mark], .nothing)

/-- The symbol that something ends, and what a character begins. -/
def after (symbol : Symbol) (c : Char) : Option (List Symbol × Partial) :=
  (start c).map fun (symbols, next) => (symbol :: symbols, next)

/-- Reads a character: the symbols that it completes. -/
def step (c : Char) : Partial → Option (List Symbol × Partial)
  | .nothing => start c
  | .word seen =>
    if isWordCharacter c then some ([], .word (c :: seen)) else after (ofWord seen.reverse) c
  | .string seen => if c = '"' then some ([], .closed seen) else some ([], .string (c :: seen))
  | .closed seen =>
    if c = '"' then some ([], .string ('"' :: seen)) else after (.word seen.reverse true) c

/-- The symbol that the end of the text completes. -/
def finish : Partial → Option (List Symbol)
  | .nothing => some []
  | .word seen => some [ofWord seen.reverse]
  | .string _ => none
  | .closed seen => some [.word seen.reverse true]

/-- The symbols of a text, of which something has been read. -/
def readAll (read : Partial) : List Char → Option (List Symbol)
  | [] => finish read
  | c :: rest => do
    let (symbols, read) ← step c read
    return symbols ++ (← readAll read rest)

end Symbol

end Ripple.FullText
