import Ripple.Record.Codec

/-!
# Fields of a record

`Fields ρ` are the named fields of a record whose values are those of the product `ρ`,
in the order of their declaration. A record is written as an object with its fields in
that order. It is read from an object whose members may come in any order, with others
among them, or from an array of the fields' values in order.

Members are read twice. `Fields.sift` goes through them as they come and meets the
first fault: of a field's value, of one that is given twice, or of the text. What it
keeps, `Fields.collect` puts in order, and only then misses what is not there.
-/

namespace Ripple.Record

open Json (Draft Halt)

/-- When a field can be left out, and what its value is then. -/
inductive Omission (α : Type) where
  /-- It must be given. -/
  | never
  /-- It can be left out of an object. -/
  | inObject (value : α)
  /-- It can be left out of an object, and at the end of an array. -/
  | anywhere (value : α)

/-- The value of a field that is left out of an object. -/
def Omission.inObject? {α : Type} : Omission α → Option α
  | .never => none
  | .inObject value | .anywhere value => some value

/-- The value of a field that an array is too short for. -/
def Omission.inArray? {α : Type} : Omission α → Option α
  | .anywhere value => some value
  | _ => none

/-- Fields whose values form a product. -/
inductive Fields : Type → Type 1 where
  /-- No field. -/
  | done : Fields Unit
  /-- A field and those after it. -/
  | field {α β : Type} (name : String) (codec : Codec α) (omission : Omission α)
      (rest : Fields β) : Fields (α × β)

namespace Fields

variable {ρ : Type}

/-- The names of the fields. -/
def names : {ρ : Type} → Fields ρ → List String
  | _, .done => []
  | _, .field name _ _ rest => name :: rest.names

/-- The members of a record. -/
def members : {ρ : Type} → Fields ρ → ρ → List (String × Json)
  | _, .done, _ => []
  | _, .field name codec _ rest, (value, values) => (name, codec.write value) :: rest.members values

/-- Whether the value of a field can be read; `none` if there is no such field. -/
def check? (key : String) (draft : Draft) : {ρ : Type} → Fields ρ → Option (Except Fault Unit)
  | _, .done => none
  | _, .field name codec _ rest =>
    if name = key then some ((codec.read draft).map fun _ => ()) else rest.check? key draft

/-- The members that are fields, or the first fault in reading order. `seen` are the
    fields so far. -/
def sift (fields : Fields ρ) (seen : List (String × Draft)) :
    List (Except Json.Fault String × Draft) → Except Fault (List (String × Draft))
  | [] => .ok seen
  | (key, value) :: rest => do
    let key ← lift key
    match fields.check? key value with
    | none =>
      match value.skipFault? with
      | some fault => throw (.ofJson fault)
      | none => sift fields seen rest
    | some verdict =>
      if (seen.lookup key).isSome then throw (.duplicateField key)
      verdict
      sift fields ((key, value) :: seen) rest

/-- The values of all fields. -/
def collect (seen : List (String × Draft)) : {ρ : Type} → Fields ρ → Except Fault ρ
  | _, .done => .ok ()
  | _, .field name codec omission rest => do
    let value ← match seen.lookup name with
      | some draft => codec.read draft
      | none => match omission.inObject? with
        | some value => pure value
        | none => throw (.missingField name)
    return (value, ← rest.collect seen)

/-- The values of all fields from the items of an array, and the items that are left.
    `whole` is what the array should be, and `count` the number of items before these. -/
def fromItems (whole : String) (cut : Option Halt) :
    {ρ : Type} → Fields ρ → (count : Nat) → List Draft → Except Fault (ρ × List Draft)
  | _, .done, _, items => .ok ((), items)
  | _, .field _ codec omission rest, count, items => do
    let (value, items) ← match items with
      | item :: items => do pure (← codec.read item, items)
      | [] => do
        checkEnd cut
        match omission.inArray? with
        | some value => pure (value, [])
        | none => throw (.invalidLength count whole)
    let (values, items) ← rest.fromItems whole cut (count + 1) items
    return ((value, values), items)

end Fields

/-- Whether an array ends after the items that were asked for. -/
def checkClosed (items : List Draft) (cut : Option Halt) : Except Fault Unit :=
  match items, cut with
  | [], none => .ok ()
  | [], some halt =>
    match halt.reading.cause with
    | .endInList => .error (.form .endInList)
    | .trailingComma => .error (.form .trailingComma)
    | _ => .error (.form .trailingCharacters)
  | _ :: _, _ => .error (.form .trailingCharacters)

/-- How many fields there are, in words. -/
def elements (count : Nat) : String :=
  if count = 1 then "1 element" else toString count ++ " elements"

/-- The codec of records with some fields, under the name that a fault gives them. -/
def codec {ρ : Type} (expected : String) (fields : Fields ρ) : Codec ρ where
  read
    | .arr deep items cut => do
      checkDepth deep
      let whole := expected ++ " with " ++ elements fields.names.length
      let (values, items) ← fields.fromItems whole cut 0 items
      checkClosed items cut
      return values
    | .obj deep members cut => do
      checkDepth deep
      let seen ← fields.sift [] members
      checkEnd cut
      fields.collect seen
    | draft => mismatch expected draft
  write values := .obj (fields.members values)

/-- Pairs, written as arrays. -/
def pairCodec {α β : Type} (first : Codec α) (second : Codec β) : Codec (α × β) where
  read
    | .arr deep items cut => do
      checkDepth deep
      let fields : Fields (α × β × Unit) :=
        .field "0" first .never (.field "1" second .never .done)
      let ((a, b, _), items) ← fields.fromItems "a tuple of size 2" cut 0 items
      checkClosed items cut
      return (a, b)
    | draft => mismatch "a tuple of size 2" draft
  write pair := .arr [first.write pair.1, second.write pair.2]

end Ripple.Record
