/-!
# The gate to the store

All requests of a session to its store pass a `Gate`, which counts them and can refuse
them. A request of some method can be refused from now on, or after a number of further
ones; a refused request counts as well.
-/

namespace Ripple

/-- The methods of a store. -/
inductive Method where
  /-- A node is stored. -/
  | upsertNode
  /-- A node is read. -/
  | getNode
  /-- The nodes of a file are read. -/
  | findNodes
  /-- An edge is stored. -/
  | addEdge
  /-- The edges of a node are read. -/
  | getEdges
  /-- Nodes are searched. -/
  | search
  /-- The sizes are read. -/
  | getStats
deriving DecidableEq, Repr

/-- A gate to a store. -/
structure Gate where
  /-- How many requests of a method there were. -/
  calls : Method → Nat
  /-- How many more requests of a method may pass, if not any number. -/
  allowance : Method → Option Nat

namespace Gate

/-- A gate that refuses nothing and has seen nothing. -/
def fresh : Gate := ⟨fun _ => 0, fun _ => none⟩

/-- A gate at which a method has another allowance. -/
def allow (gate : Gate) (method : Method) (allowance : Option Nat) : Gate :=
  { gate with allowance := fun m => if m = method then allowance else gate.allowance m }

/-- A request: whether it may pass. -/
def pass (gate : Gate) (method : Method) : Gate × Bool :=
  let counted : Gate :=
    { gate with calls := fun m => if m = method then gate.calls m + 1 else gate.calls m }
  match gate.allowance method with
  | none => (counted, true)
  | some 0 => (counted, false)
  | some (left + 1) => (counted.allow method (some left), true)

/-- A gate that counts from now on. -/
def recount (gate : Gate) : Gate := { gate with calls := fun _ => 0 }

end Gate

end Ripple
