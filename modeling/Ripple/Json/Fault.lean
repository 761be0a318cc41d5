import Ripple.Text.Bytes

/-!
# Faults of a JSON text

A `Fault` is a cause and a place. The place is kept as the number of bytes that
follow it, so that a reader need not count what it has passed; `Fault.within` turns it
into the line and the column of a `JsonError`. The column of an offending byte counts
that byte, so one that is a line feed lies in column 0 of the next line.
-/

namespace Ripple

namespace Json

/-- What can be wrong with a JSON text. -/
inductive Cause where
  /-- The text ends where a value should be. -/
  | endInValue
  /-- The text ends inside an array. -/
  | endInList
  /-- The text ends inside an object. -/
  | endInObject
  /-- The text ends inside a string. -/
  | endInString
  /-- Something else stands where a value should be. -/
  | expectedValue
  /-- A word begins like `null`, `true` or `false` and goes on differently. -/
  | expectedIdent
  /-- Something follows the value. -/
  | trailingCharacters
  /-- A comma stands before a closing bracket. -/
  | trailingComma
  /-- A key does not begin with a quote. -/
  | keyMustBeString
  /-- No colon follows a key. -/
  | expectedColon
  /-- Neither a comma nor a bracket follows an item. -/
  | expectedListEnd
  /-- Neither a comma nor a brace follows a member. -/
  | expectedObjectEnd
  /-- A number is malformed. -/
  | invalidNumber
  /-- A number is beyond the largest double. -/
  | numberOutOfRange
  /-- A backslash is followed by something it does not escape. -/
  | invalidEscape
  /-- A leading surrogate is not followed by an escaped unit. -/
  | unexpectedEscapeEnd
  /-- A surrogate has no partner. -/
  | loneSurrogate
  /-- A character below the blank stands in a string. -/
  | controlCharacter
  /-- Arrays and objects nest too deeply. -/
  | tooDeep
deriving DecidableEq, Repr

/-- The words for a cause. -/
def Cause.message : Cause → String
  | .endInValue => "EOF while parsing a value"
  | .endInList => "EOF while parsing a list"
  | .endInObject => "EOF while parsing an object"
  | .endInString => "EOF while parsing a string"
  | .expectedValue => "expected value"
  | .expectedIdent => "expected ident"
  | .trailingCharacters => "trailing characters"
  | .trailingComma => "trailing comma"
  | .keyMustBeString => "key must be a string"
  | .expectedColon => "expected `:`"
  | .expectedListEnd => "expected `,` or `]`"
  | .expectedObjectEnd => "expected `,` or `\x7d`"
  | .invalidNumber => "invalid number"
  | .numberOutOfRange => "number out of range"
  | .invalidEscape => "invalid escape"
  | .unexpectedEscapeEnd => "unexpected end of hex escape"
  | .loneSurrogate => "lone leading surrogate in hex escape"
  | .controlCharacter => "control character (\\u0000-\\u001F) found while parsing a string"
  | .tooDeep => "recursion limit exceeded"

/-- Whether the text merely ends too early. -/
def Cause.isEnd : Cause → Bool
  | .endInValue | .endInList | .endInObject | .endInString => true
  | _ => false

/-- A cause and its place, as the number of bytes after it. -/
structure Fault where
  /-- What is wrong. -/
  cause : Cause
  /-- How many bytes of the text follow the place. -/
  left : Nat
deriving DecidableEq, Repr

/-- The fault at the end of the text. -/
def Fault.atEnd (cause : Cause) : Fault := ⟨cause, 0⟩

/-- The fault just before some characters. -/
def Fault.before (cause : Cause) (rest : List Char) : Fault := ⟨cause, Text.byteCount rest⟩

/-- The fault on the first byte of some characters, or at the end if there are none. -/
def Fault.on (cause : Cause) (rest : List Char) : Fault := ⟨cause, Text.byteCount rest - 1⟩

end Json

/-- A fault of a JSON text with its line and column. -/
structure JsonError where
  /-- What is wrong. -/
  cause : Json.Cause
  /-- The line, counted from one. -/
  line : Nat
  /-- The bytes of that line up to and including the offending one. -/
  column : Nat
deriving DecidableEq, Repr

/-- A fault as an error of the text in which it was found. -/
def Json.Fault.within (fault : Json.Fault) (text : String) : JsonError :=
  let bytes := Text.bytesOf text
  let passed := bytes.take (bytes.length - fault.left)
  ⟨fault.cause, Text.lineAfter passed, Text.columnAfter passed⟩

/-- An error in words. -/
def JsonError.message (e : JsonError) : String :=
  e.cause.message ++ " at line " ++ toString e.line ++ " column " ++ toString e.column

end Ripple
