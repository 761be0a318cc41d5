import Ripple.Record.Fault
import Ripple.Json.Reader
import Ripple.Json.Printer

/-!
# Codecs

A `Codec α` writes values of `α` as JSON and reads them from a draft, so that it meets
the faults of the text in reading order. `Codec.decode` reads a whole text.

This module holds the codecs of single values and of lists, pairs and options;
records are made of them.
-/

namespace Ripple

open Json (Draft Halt Document)

/-- A way to write values as JSON and to read them. -/
structure Codec (α : Type) where
  /-- The value of a draft. -/
  read : Draft → Except Record.Fault α
  /-- A value as JSON. -/
  write : α → Json

namespace Record

/-- A fault of the text as a fault of the record. -/
def Fault.ofJson (fault : Json.Fault) : Fault := .form fault.cause

/-- A result of reading JSON as one of reading a record. -/
def lift {α : Type} (result : Except Json.Fault α) : Except Fault α :=
  result.mapError Fault.ofJson

/-- What a draft shows to someone who expects something else; an array or object is
    recognised by its bracket. -/
def found : Draft → Except Fault Found
  | .null => .ok .null
  | .bool b => .ok (.bool b)
  | .num n => do
    match ← lift n with
    | .int n => return .int n
    | .real x => return .real x
  | .str s => return .text (← lift s)
  | .arr .. => .ok .sequence
  | .obj .. => .ok .map
  | .broken halt => .error (.ofJson halt.reading)

/-- The fault of a draft that is not what was expected. -/
def mismatch {α : Type} (expected : String) (draft : Draft) : Except Fault α := do
  throw (.invalidType (← found draft) expected)

/-- Whether an array or object is not too deep to be read. -/
def checkDepth : Option Json.Fault → Except Fault Unit
  | none => .ok ()
  | some fault => .error (.ofJson fault)

/-- Whether items or members end with their bracket. -/
def checkEnd : Option Halt → Except Fault Unit
  | none => .ok ()
  | some halt => .error (.ofJson halt.reading)

end Record

namespace Codec

open Record

/-- Reads a whole text. -/
def decode {α : Type} (codec : Codec α) (text : String) : Except Fault α := do
  let document := Document.ofText text
  let value ← codec.read document.root
  match document.trailing with
  | some fault => throw (.ofJson fault)
  | none => return value

/-- Writes a value as text. -/
def encode {α : Type} (codec : Codec α) (value : α) : String := (codec.write value).text

/-- A codec for another type of values. -/
def map {α β : Type} (codec : Codec α) (there : β → α) (back : α → β) : Codec β where
  read draft := (codec.read draft).map back
  write value := codec.write (there value)

/-- Strings, under the name that a fault gives them. -/
def stringAs (expected : String) : Codec String where
  read
    | .str s => lift s
    | draft => mismatch expected draft
  write := .str

/-- Strings. -/
def string : Codec String := stringAs "a string"

/-- Integers of a range. -/
def integer (expected : String) (low high : Int) : Codec Int where
  read
    | .num n => do
      match ← lift n with
      | .int n => if low ≤ n ∧ n ≤ high then return n else throw (.outOfRange n expected)
      | .real x => throw (.invalidType (.real x) expected)
    | draft => mismatch expected draft
  write := .int

/-- Integers of 64 bits with a sign. -/
def int64 : Codec Int := integer "i64" (-9223372036854775808) 9223372036854775807

/-- Counts of 64 bits, under the name that a fault gives them. -/
def count (expected : String) : Codec Nat :=
  (integer expected 0 18446744073709551615).map Int.ofNat Int.toNat

/-- Words of 32 bits. -/
def word32 : Codec UInt32 :=
  (integer "u32" 0 4294967295).map (fun n => n.toNat) fun n => .ofNat n.toNat

/-- Words of 64 bits, under the name that a fault gives them. -/
def word64 (expected : String) : Codec UInt64 :=
  (count expected).map UInt64.toNat .ofNat

/-- Any JSON. -/
def json : Codec Json where
  read draft := lift draft.value
  write := id

/-- Timestamps. -/
def instant : Codec Instant where
  read draft := do
    let text ← (stringAs "an RFC 3339 formatted date and time string").read draft
    (Instant.readLenient text).mapError .timestamp
  write t := .str t.recordText

/-- Values that may be missing, written as `null`. -/
def optional {α : Type} (codec : Codec α) : Codec (Option α) where
  read
    | .null => .ok none
    | draft => (codec.read draft).map some
  write
    | none => .null
    | some value => codec.write value

/-- Arrays. -/
def list {α : Type} (codec : Codec α) : Codec (List α) where
  read
    | .arr deep items cut => do
      checkDepth deep
      let values ← items.mapM codec.read
      checkEnd cut
      return values
    | draft => mismatch "a sequence" draft
  write values := .arr (values.map codec.write)

end Codec

end Ripple
