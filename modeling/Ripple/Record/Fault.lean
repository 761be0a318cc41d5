import Ripple.Json.Draft
import Ripple.Number.Shortest
import Ripple.Text.Quoted
import Ripple.Time.Rfc3339

/-!
# Faults of a record

A text can be sound JSON and yet be no record of the kind that is asked for. A
`Record.Fault` is a fault of either sort: of the JSON text, of which only the cause is
kept, or of the value that it writes. `Fault.message` gives it in words and
`Fault.category` says of which sort it is.
-/

namespace Ripple.Record

/-- What stands in place of something else. -/
inductive Found where
  /-- `null` -/
  | null
  /-- A truth value. -/
  | bool (value : Bool)
  /-- An integer. -/
  | int (value : Int)
  /-- Another number. -/
  | real (value : Double)
  /-- A string. -/
  | text (value : String)
  /-- An array. -/
  | sequence
  /-- An object. -/
  | map
deriving DecidableEq, Repr

/-- Why a text is no record of some kind. -/
inductive Fault where
  /-- The text is no JSON. -/
  | form (cause : Json.Cause)
  /-- A value of another type stands where one was expected. -/
  | invalidType (found : Found) (expected : String)
  /-- An integer is out of range. -/
  | outOfRange (value : Int) (expected : String)
  /-- An array has too few or too many items. -/
  | invalidLength (length : Nat) (expected : String)
  /-- A field is not given. -/
  | missingField (name : String)
  /-- A field is given twice. -/
  | duplicateField (name : String)
  /-- There is no variant of this name. -/
  | unknownVariant (name : String) (known : List String)
  /-- A string is no timestamp. -/
  | timestamp (fault : Instant.Fault)
deriving DecidableEq, Repr

/-- The sorts of faults. -/
inductive Category where
  /-- The text is malformed. -/
  | form
  /-- The text is too short. -/
  | ending
  /-- The value is unfit. -/
  | data
deriving DecidableEq, Repr

/-- A text between backticks. -/
def ticked (text : String) : String := "`" ++ text ++ "`"

/-- What was found, in words. -/
def Found.message : Found → String
  | .null => "null"
  | .bool true => "boolean " ++ ticked "true"
  | .bool false => "boolean " ++ ticked "false"
  | .int n => "integer " ++ ticked (toString n)
  | .real x => "floating point " ++ ticked x.text
  | .text s => "string " ++ Text.quoted s
  | .sequence => "sequence"
  | .map => "map"

/-- A list of names, each between backticks. -/
def tickedNames (names : List String) : String := ", ".intercalate (names.map ticked)

/-- A fault in words. -/
def Fault.message : Fault → String
  | .form cause => cause.message
  | .invalidType found expected => "invalid type: " ++ found.message ++ ", expected " ++ expected
  | .outOfRange value expected =>
    "invalid value: integer " ++ ticked (toString value) ++ ", expected " ++ expected
  | .invalidLength length expected =>
    "invalid length " ++ toString length ++ ", expected " ++ expected
  | .missingField name => "missing field " ++ ticked name
  | .duplicateField name => "duplicate field " ++ ticked name
  | .unknownVariant name known =>
    "unknown variant " ++ ticked name ++ ", expected one of " ++ tickedNames known
  | .timestamp fault => fault.message

/-- The sort of a fault. -/
def Fault.category : Fault → Category
  | .form cause => if cause.isEnd then .ending else .form
  | _ => .data

end Ripple.Record
