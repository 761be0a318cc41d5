import Ripple.Number.Double

/-!
# JSON values

A `Json` value is what a JSON text says. Integers from `-2 ^ 63` below `2 ^ 64` are
kept as integers; every other number is a double. The members of an object form a
list: `Json.ofMembers` gives them the order and the uniqueness that a reader gives
them, by key and with the last of equal keys, and `Json.Ordered` says that an object
has that form at every depth.

`Json.depth` is the greatest number of arrays and objects around a leaf.
-/

namespace Ripple

/-- A number of a JSON text. -/
inductive JsonNumber where
  /-- An integer without fraction or exponent that fits 64 bits. -/
  | int (value : Int)
  /-- Any other number. -/
  | real (value : Double)
deriving DecidableEq, Repr

/-- A JSON value. -/
inductive Json where
  /-- `null` -/
  | null
  /-- `true` or `false` -/
  | bool (value : Bool)
  /-- A number. -/
  | num (value : JsonNumber)
  /-- A string. -/
  | str (value : String)
  /-- An array. -/
  | arr (items : List Json)
  /-- An object, its members in the order in which they are written. -/
  | obj (members : List (String × Json))
deriving Repr, BEq, Inhabited

namespace Json

/-- An integer value. -/
def int (n : Int) : Json := .num (.int n)

/-- A natural number value. -/
def nat (n : Nat) : Json := .num (.int n)

/-- A string value, or `null` for none. -/
def ofText? : Option String → Json
  | none => .null
  | some s => .str s

/-- Puts a member into sorted members, in place of one with the same key. -/
def put (key : String) (value : Json) : List (String × Json) → List (String × Json)
  | [] => [(key, value)]
  | (k, v) :: rest =>
    if key < k then (key, value) :: (k, v) :: rest
    else if key = k then (key, value) :: rest
    else (k, v) :: put key value rest

/-- The object of members read one after the other: sorted by key, the last of equal
    keys kept. -/
def ofMembers (members : List (String × Json)) : Json :=
  .obj (members.foldl (fun sorted (key, value) => put key value sorted) [])

/-- The member of an object under a key. -/
def find? (key : String) : Json → Option Json
  | .obj members => members.lookup key
  | _ => none

mutual

/-- How many arrays and objects lie around the innermost leaf. -/
def depth : Json → Nat
  | .arr items => depthOfItems items + 1
  | .obj members => depthOfMembers members + 1
  | _ => 0
termination_by structural value => value

/-- The greatest depth of some items. -/
def depthOfItems : List Json → Nat
  | [] => 0
  | item :: items => max item.depth (depthOfItems items)
termination_by structural items => items

/-- The greatest depth of some members. -/
def depthOfMembers : List (String × Json) → Nat
  | [] => 0
  | member :: members => max (depthOfMember member) (depthOfMembers members)
termination_by structural members => members

/-- The depth of a member. -/
def depthOfMember : String × Json → Nat
  | (_, value) => value.depth
termination_by structural member => member

end

mutual

/-- Whether all numbers are integers that fit 64 bits, and the members of every
    object are sorted by distinct keys. -/
def Ordered : Json → Prop
  | .num (.int n) => -9223372036854775808 ≤ n ∧ n < 18446744073709551616
  | .num (.real _) => False
  | .arr items => OrderedItems items
  | .obj members => (members.map Prod.fst).Pairwise (· < ·) ∧ OrderedMembers members
  | _ => True
termination_by structural value => value

/-- Every item is ordered. -/
def OrderedItems : List Json → Prop
  | [] => True
  | item :: items => item.Ordered ∧ OrderedItems items
termination_by structural items => items

/-- Every member's value is ordered. -/
def OrderedMembers : List (String × Json) → Prop
  | [] => True
  | member :: members => OrderedMember member ∧ OrderedMembers members
termination_by structural members => members

/-- The member's value is ordered. -/
def OrderedMember : String × Json → Prop
  | (_, value) => value.Ordered
termination_by structural member => member

end

end Json

end Ripple
