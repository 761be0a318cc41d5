/-!
# Substrings

A text that is no query is looked for as it stands, in names and contents, without
regard to the case of ASCII letters. It is looked for by way of a pattern: the text in
lower case between two wildcards, in which what could be taken for a wildcard is
escaped. `like` says which texts a pattern describes.

A NUL ends the name, the content or the pattern in which it stands. A pattern that it
ends has lost its last wildcard, and the sought text then has to stand at the end of the
name or content. The size of a pattern is limited.
-/

namespace Ripple.FullText

/-! ## Patterns -/

/-- Whether what is left of a text, from some place on, passes a test. -/
def anyTail (passes : List Char → Bool) : List Char → Bool
  | [] => passes []
  | c :: rest => passes (c :: rest) || anyTail passes rest

/-- Whether a text is as a pattern describes it. `%` stands for any characters and `_` for
    any one. A character after a backslash stands for itself, and so does any other; an
    ASCII letter does in either case. -/
def like : (pattern text : List Char) → Bool
  | [], text => text.isEmpty
  | '%' :: pattern, text => anyTail (like pattern) text
  | _ :: _, [] => false
  | '_' :: pattern, _ :: text => like pattern text
  | ['\\'], _ :: _ => false
  | '\\' :: p :: pattern, c :: text => p.toLower == c.toLower && like pattern text
  | p :: pattern, c :: text => p.toLower == c.toLower && like pattern text

/-- Whether a character has a meaning of its own in a pattern. -/
def isWild (c : Char) : Bool := c = '%' || c = '_' || c = '\\'

/-- Characters as a pattern describes them, each by itself. -/
def escaped (cs : List Char) : List Char := cs.flatMap fun c => if isWild c then ['\\', c] else [c]

/-! ## Texts -/

/-- Characters with ASCII letters in lower case. -/
def lowerCase (cs : List Char) : List Char := cs.map Char.toLower

/-- The character that a code point is compared as. Those that are no characters count as
    one. -/
def standIn (c : Char) : Char := if c = '\ufffe' ∨ c = '\uffff' then '\ufffd' else c

/-- The characters that are compared: those up to the first NUL. -/
def comparable (cs : List Char) : List Char := (cs.takeWhile (· ≠ '\x00')).map standIn

/-- A text that is looked for. -/
structure Sought where
  /-- The pattern that describes the texts in which it stands. -/
  pattern : List Char
deriving DecidableEq, Repr

namespace Sought

/-- A text as it is looked for. -/
def ofText (text : String) : Sought := ⟨'%' :: escaped (lowerCase text.toList) ++ ['%']⟩

/-- The bytes of the pattern. -/
def patternSize (sought : Sought) : Nat := (String.ofList sought.pattern).utf8ByteSize

/-- The most bytes that a pattern can have. -/
def maxPatternSize : Nat := 50000

/-- Whether the pattern is too long to be used. -/
def isTooLong (sought : Sought) : Bool := sought.patternSize > maxPatternSize

/-- Whether the text stands in another. -/
def isIn (sought : Sought) (text : String) : Bool :=
  like (comparable sought.pattern) (comparable (lowerCase text.toList))

end Sought

end Ripple.FullText
