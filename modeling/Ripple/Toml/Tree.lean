import Ripple.Toml.Basic

/-!
# Trees of tables

While a TOML text is read, its tables form a `Tree` that remembers how each table came to
be: by a header of its own, by headers of tables inside it, or by a key with dots. That
decides what may still be added. A header can name a table once, and not one that a key
with dots has made; a key with dots does not reach into a table that a header has named.
-/

namespace Ripple.Toml

/-- How a table came to be. -/
inductive Origin where
  /-- By its own header. -/
  | header
  /-- By the header of a table inside it. -/
  | implied
  /-- By a key with dots. -/
  | dotted
deriving DecidableEq, Repr

/-- A table that is being read, or what is in one. -/
inductive Tree where
  /-- A value, to which nothing can be added. -/
  | value (value : Toml)
  /-- A table. -/
  | table (origin : Origin) (entries : List (String × Tree))
  /-- An array of tables, the last one first. -/
  | tables (last : List (String × Tree)) (before : List (List (String × Tree)))
deriving Inhabited

/-- The entries of a table. -/
abbrev Entries := List (String × Tree)

namespace Tree

/-- Changes the entry of a key, or adds one. -/
def update (key : String) (change : Option Tree → Option Tree) : Entries → Option Entries
  | [] => do
    return [(key, ← change none)]
  | (k, tree) :: rest =>
    if k = key then (change (some tree)).map fun tree => (k, tree) :: rest
    else (update key change rest).map ((k, tree) :: ·)

/-- Adds an entry with a new key. -/
def add (key : String) (tree : Tree) : Entries → Option Entries :=
  update key fun
    | none => some tree
    | some _ => none

/-- Adds a value under a key that begins with the names of tables. -/
def put (path : List String) (key : String) (value : Toml) (entries : Entries) : Option Entries :=
  match path with
  | [] => add key (.value value) entries
  | name :: path =>
    entries |> update name fun
      | none => (put path key value []).map (.table .dotted)
      | some (.table origin inner) =>
        if origin = .header ∨ (path = [] ∧ origin ≠ .dotted) then none
        else (put path key value inner).map (.table origin)
      | some (.tables last before) =>
        if path = [] then none else (put path key value last).map (.tables · before)
      | some (.value _) => none

/-- Changes the entries of the innermost of some tables. Tables that are not there are
    implied; of an array of tables the last one is meant. -/
def within (path : List String) (change : Entries → Option Entries) (entries : Entries) :
    Option Entries :=
  match path with
  | [] => change entries
  | name :: path =>
    entries |> update name fun
      | none => (within path change []).map (.table .implied)
      | some (.table origin inner) => (within path change inner).map (.table origin)
      | some (.tables last before) => (within path change last).map (.tables · before)
      | some (.value _) => none

/-- Begins a table of a name. -/
def openTable (name : String) : Entries → Option Entries :=
  update name fun
    | none => some (.table .header [])
    | some (.table .implied inner) => some (.table .header inner)
    | some _ => none

/-- Begins another table of an array of tables. -/
def openItem (name : String) : Entries → Option Entries :=
  update name fun
    | none => some (.tables [] [])
    | some (.tables last before) => some (.tables [] (last :: before))
    | some _ => none

mutual

/-- The value of a tree. -/
def toToml : Tree → Toml
  | .value v => v
  | .table _ entries => .table (tomlEntries entries)
  | .tables last before =>
    .array ((.table (tomlEntries last) :: tomlTables before).reverse)
termination_by structural tree => tree

/-- The values of some entries. -/
def tomlEntries : List (String × Tree) → List (String × Toml)
  | [] => []
  | entry :: entries => tomlEntry entry :: tomlEntries entries
termination_by structural entries => entries

/-- The value of an entry. -/
def tomlEntry : String × Tree → String × Toml
  | (key, tree) => (key, tree.toToml)
termination_by structural entry => entry

/-- The values of some tables. -/
def tomlTables : List (List (String × Tree)) → List Toml
  | [] => []
  | entries :: more => .table (tomlEntries entries) :: tomlTables more
termination_by structural items => items

end

end Tree

end Ripple.Toml
