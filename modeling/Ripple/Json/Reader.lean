import Ripple.Json.Draft

/-!
# Reading JSON values

`Draft.value` takes the value from a draft, `Draft.skipFault?` passes over it.
`Json.parse` reads a text whose value is all that it holds. `Json.draft` is the draft
of a value that has been read already.
-/

namespace Ripple

namespace Json.Draft

mutual

/-- The value of a draft, or the first fault in it. -/
def value : Draft → Except Fault Json
  | .null => .ok .null
  | .bool b => .ok (.bool b)
  | .num n => n.map .num
  | .str s => s.map .str
  | .arr (some fault) _ _ => .error fault
  | .arr none items cut => do
    let items ← itemValues items
    match cut with
    | some halt => .error halt.reading
    | none => .ok (.arr items)
  | .obj (some fault) _ _ => .error fault
  | .obj none members cut => do
    let members ← memberValues members
    match cut with
    | some halt => .error halt.reading
    | none => .ok (Json.ofMembers members)
  | .broken halt => .error halt.reading
termination_by structural draft => draft

/-- The values of some items. -/
def itemValues : List Draft → Except Fault (List Json)
  | [] => .ok []
  | item :: items => do
    let item ← item.value
    let items ← itemValues items
    return item :: items
termination_by structural items => items

/-- The keys and values of some members. -/
def memberValues : List (Except Fault String × Draft) → Except Fault (List (String × Json))
  | [] => .ok []
  | member :: members => do
    let member ← memberValue member
    let members ← memberValues members
    return member :: members
termination_by structural members => members

/-- The key and the value of a member. -/
def memberValue : Except Fault String × Draft → Except Fault (String × Json)
  | (key, draft) => do
    let key ← key
    let value ← draft.value
    return (key, value)
termination_by structural member => member

end

mutual

/-- The fault at which someone stops who passes over a draft. -/
def skipFault? : Draft → Option Fault
  | .arr _ items cut => (itemsSkipFault? items).or (cut.map Halt.skipping)
  | .obj _ members cut => (membersSkipFault? members).or (cut.map Halt.skipping)
  | .broken halt => some halt.skipping
  | _ => none
termination_by structural draft => draft

/-- The fault at which someone stops who passes over some items. -/
def itemsSkipFault? : List Draft → Option Fault
  | [] => none
  | item :: items => item.skipFault?.or (itemsSkipFault? items)
termination_by structural items => items

/-- The fault at which someone stops who passes over some members. -/
def membersSkipFault? : List (Except Fault String × Draft) → Option Fault
  | [] => none
  | member :: members => (memberSkipFault? member).or (membersSkipFault? members)
termination_by structural members => members

/-- The fault at which someone stops who passes over a member. -/
def memberSkipFault? : Except Fault String × Draft → Option Fault
  | (_, draft) => draft.skipFault?
termination_by structural member => member

end

end Json.Draft

namespace Json

mutual

/-- The draft of a value, without any fault. -/
def draft : Json → Draft
  | .null => .null
  | .bool b => .bool b
  | .num n => .num (.ok n)
  | .str s => .str (.ok s)
  | .arr items => .arr none (draftItems items) none
  | .obj members => .obj none (draftMembers members) none
termination_by structural value => value

/-- The drafts of some values. -/
def draftItems : List Json → List Draft
  | [] => []
  | item :: items => item.draft :: draftItems items
termination_by structural items => items

/-- The drafts of some members. -/
def draftMembers : List (String × Json) → List (Except Fault String × Draft)
  | [] => []
  | member :: members => draftMember member :: draftMembers members
termination_by structural members => members

/-- The draft of a member. -/
def draftMember : String × Json → Except Fault String × Draft
  | (key, value) => (.ok key, value.draft)
termination_by structural member => member

end

/-- The value of a whole text, or its first fault. -/
def Document.value (document : Document) : Except Fault Json := do
  let value ← document.root.value
  match document.trailing with
  | some fault => .error fault
  | none => .ok value

/-- Reads a text. -/
def parse (text : String) : Except JsonError Json :=
  (Document.ofText text).value.mapError fun fault => fault.within text

end Json

end Ripple
