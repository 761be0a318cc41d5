import Ripple.Record.Fields

/-!
# Tagged records

A tagged record is one of several kinds, each with fields of its own. One more member,
the tag, names the kind and can stand anywhere among the members; in an array the tag
is the first item. As the fields are not known before the tag is, all members are read
for their whole value first, whether they are fields or not.
-/

namespace Ripple.Record

open Json (Draft)

/-- The name of a kind. -/
def tagName : Draft → Except Fault String
  | .str s => lift s
  | draft => mismatch "variant identifier" draft

/-- Reads a tag as the kind that it names. -/
def tagOf {κ : Type} (kinds : List (String × κ)) (draft : Draft) : Except Fault κ := do
  let name ← tagName draft
  match kinds.lookup name with
  | some kind => return kind
  | none => throw (.unknownVariant name (kinds.map Prod.fst))

/-- Splits members into the kind that the tag names and the others, read in full.
    `kind` is the kind so far. -/
def splitTag {κ : Type} (tag : String) (kinds : List (String × κ)) (kind : Option κ) :
    List (Except Json.Fault String × Draft) →
      Except Fault (Option κ × List (Except Json.Fault String × Draft))
  | [] => .ok (kind, [])
  | (key, value) :: rest => do
    let key ← lift key
    if key = tag then
      if kind.isSome then throw (.duplicateField tag)
      splitTag tag kinds (some (← tagOf kinds value)) rest
    else
      let value ← lift value.value
      let (kind, members) ← splitTag tag kinds kind rest
      return (kind, (.ok key, value.draft) :: members)

/-- How a tagged record of a known kind is read. -/
structure Kind (α : Type) where
  /-- The record of the other members. -/
  ofMembers : List (Except Json.Fault String × Draft) → Except Fault α
  /-- The record of the items after the tag. -/
  ofItems : List Draft → Except Fault α

/-- The kind of the records with some fields, under the name that a fault gives it. -/
def Kind.ofFields {α ρ : Type} (expected : String) (fields : Fields ρ) (make : ρ → α) : Kind α where
  ofMembers members := do
    let seen ← fields.sift [] members
    return make (← fields.collect seen)
  ofItems items := do
    let count := elements fields.names.length
    let (values, left) ← fields.fromItems (expected ++ " with " ++ count) none 0 items
    if left.isEmpty then return make values
    else throw (.invalidLength items.length (count ++ " in sequence"))

/-- Reads a tagged record, under the name that a fault gives it. -/
def readTagged {α : Type} (expected tag : String) (kinds : List (String × Kind α)) :
    Draft → Except Fault α
  | .arr deep items cut => do
    checkDepth deep
    match items with
    | [] => do
      checkEnd cut
      throw (.missingField tag)
    | first :: rest => do
      let kind ← tagOf kinds first
      let values ← lift (Draft.itemValues rest)
      checkEnd cut
      kind.ofItems (Json.draftItems values)
  | .obj deep members cut => do
    checkDepth deep
    let (kind, members) ← splitTag tag kinds none members
    checkEnd cut
    match kind with
    | some kind => kind.ofMembers members
    | none => throw (.missingField tag)
  | draft => mismatch expected draft

end Ripple.Record
