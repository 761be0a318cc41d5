import Ripple.Store.Tables
import Ripple.FullText.Engine
import Ripple.FullText.Substring

/-!
# Searches

A search text that an engine takes for a query is answered by the text index, the best
matches first. Any other is looked for as it stands, and what holds it comes in the order
in which it was stored first. No text has to be a query for a search to succeed, but one
that is none can be too long for a pattern. What can fail besides is the database, or the
decoding of a row that is returned.
-/

namespace Ripple

/-- How a search was answered. -/
inductive SearchRoute where
  /-- By the text index. -/
  | index
  /-- By looking at names and contents. -/
  | scan
deriving DecidableEq, Repr

/-- The texts of a row of the text index. -/
def IndexRow.texts (row : IndexRow) : FullText.Texts := ⟨row.name, row.content⟩

/-- Whether a text stands in the name or the content of a row. -/
def NodeRow.holds (row : NodeRow) (sought : FullText.Sought) : Bool :=
  sought.isIn row.name || sought.isIn (row.content.getD "")

namespace Tables

/-- The rows of nodes that the text index finds; none if it cannot be asked, or if the text
    is no query. -/
def indexedRows? (t : Tables) (engine : FullText.Engine) (text : String) (limit : Nat) :
    Option (List NodeRow) :=
  match t.nodes, t.index with
  | some table, some rows =>
    if limit = 0 then some []
    else (engine.matcher? text).map fun matcher =>
      let ranked := matcher.rank (rows.map fun row => (row.nodeId, row.texts))
      (ranked.filterMap (table.find? ·)).take limit
  | _, _ => none

/-- The rows of nodes that hold a text. -/
def scannedRows (t : Tables) (text : String) (limit : Nat) :
    Except StorageFault (List NodeRow) := do
  let table ← t.needNodes
  let sought := FullText.Sought.ofText text
  if limit ≠ 0 ∧ table.rows ≠ [] ∧ sought.isTooLong then throw (.engine .patternTooComplex)
  return (table.rows.filter (·.holds sought)).take limit

/-- The rows that a search returns. -/
def searchRows (t : Tables) (engine : FullText.Engine) (text : String) (limit : Nat) :
    Except StorageFault (List NodeRow × SearchRoute) :=
  match t.indexedRows? engine text limit with
  | some rows => .ok (rows, .index)
  | none => (t.scannedRows text limit).map fun rows => (rows, .scan)

/-- The nodes that a search returns, and how it was answered. -/
def search (t : Tables) (engine : FullText.Engine) (text : String) (limit : UInt64) :
    Except GraphError (List Node × SearchRoute) := do
  let (rows, path) ← fault (t.searchRows engine text limit.toNat)
  return (← rows.mapM NodeRow.decode, path)

end Tables

end Ripple
