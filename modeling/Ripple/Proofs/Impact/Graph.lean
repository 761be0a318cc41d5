import Ripple.Proofs.Store.NodeTable
import Ripple.Impact.Analysis
import Mathlib.Order.Nat
import Mathlib.Order.Bounds.Basic

/-!
# The graph of the stored rows

What an analysis can reach depends on the rows of nodes and edges alone, whether or not
their metadata and timestamps can be read. `Graph` holds these rows.

A walk from a file (`Graph.Reaches`) begins at a node of the file and goes along edges in
either direction. It leaves stored nodes only: its end need not be one. A part of a walk may
begin anywhere (`Graph.Leads`). The least length of a walk to an identifier is its distance
(`Graph.Hops`), and the least length of a walk to a node of a file is the distance of that
file (`Graph.FileHops`).

`Graph.file?`, `Graph.seeds` and `Graph.neighbors` compute what a search asks of a graph,
and `Impact.Source.Reads` says that a source answers so unless it fails.
-/

namespace Ripple

/-- The endpoint that is not the given node; of a loop, the node itself. -/
def EdgeRow.neighborOf (row : EdgeRow) (node : String) : String :=
  if row.source = node then row.target else row.source

/-- The rows of nodes and edges. -/
structure Graph where
  /-- The rows of nodes. -/
  nodes : List NodeRow
  /-- The rows of edges. -/
  edges : List EdgeRow
  /-- No two nodes share an identifier. -/
  distinct : (nodes.map NodeRow.id).Nodup

/-- The graph of some tables, empty where a table is missing. -/
def Tables.graph (t : Tables) : Graph where
  nodes := (t.nodes.getD .empty).rows
  edges := (t.edges.map EdgeTable.rows).getD []
  distinct := (t.nodes.getD .empty).distinct

theorem Tables.graph_nodes {t : Tables} {table : NodeTable} (h : t.nodes = some table) :
    t.graph.nodes = table.rows := by
  simp [graph, h]

theorem Tables.graph_edges {t : Tables} {table : EdgeTable} (h : t.edges = some table) :
    t.graph.edges = table.rows := by
  simp [graph, h]

namespace Graph

variable (g : Graph) {path file id x y : String} {k l : ℕ}

/-- `id` is a stored node. -/
def Stored (id : String) : Prop := ∃ row ∈ g.nodes, row.id = id

/-- `id` is a stored node of the file `path`. -/
def Carries (id path : String) : Prop := ∃ row ∈ g.nodes, row.id = id ∧ row.filePath = some path

/-- An edge leads from `x` to `y` or from `y` to `x`. -/
def Adjacent (x y : String) : Prop :=
  ∃ edge ∈ g.edges, (edge.source = x ∧ edge.target = y) ∨ (edge.source = y ∧ edge.target = x)

/-- A walk of `k` steps leads from a node of the file `path` to `id`: all identifiers
    before the last are stored nodes. -/
inductive Reaches (path : String) : ℕ → String → Prop
  | seed {id : String} : g.Carries id path → Reaches path 0 id
  | step {k : ℕ} {x y : String} : Reaches path k x → g.Stored x → g.Adjacent x y →
      Reaches path (k + 1) y

/-- A walk of `k` steps leads from `x` to `y`: all identifiers before `y` are stored nodes. -/
inductive Leads (x : String) : ℕ → String → Prop
  | refl : Leads x 0 x
  | step {k : ℕ} {y z : String} : Leads x k y → g.Stored y → g.Adjacent y z → Leads x (k + 1) z

/-- The shortest walk from the file `path` to `id` has `k` steps. -/
def Hops (path id : String) (k : ℕ) : Prop := IsLeast {k | g.Reaches path k id} k

/-- The shortest walk from the file `path` to a node of `file` has `k` steps. -/
def FileHops (path file : String) (k : ℕ) : Prop :=
  IsLeast {k | ∃ id, g.Reaches path k id ∧ g.Carries id file} k

/-! ## What a search asks -/

/-- The file of a stored node, if there is such a node and if it has one. -/
def file? (id : String) : Option (Option String) :=
  (g.nodes.find? (·.id = id)).map NodeRow.filePath

/-- The nodes of a file, in the order in which they were stored first. -/
def seeds (path : String) : List String :=
  (g.nodes.filter (·.filePath = some path)).map NodeRow.id

/-- What lies at the other ends of the edges of a node. -/
def neighbors (id : String) : List String := (g.edges.filter (·.touches id)).map (·.neighborOf id)

variable {g}

/-- The row of an identifier is the only one. -/
theorem find?_eq_of_mem {row : NodeRow} (h : row ∈ g.nodes) :
    g.nodes.find? (·.id = row.id) = some row :=
  NodeTable.find?_eq_of_mem g.distinct h

theorem file?_eq_none_iff : g.file? id = none ↔ ¬g.Stored id := by
  simp [file?, Stored]

theorem stored_of_file? {o : Option String} (h : g.file? id = some o) : g.Stored id := by
  by_contra hn
  rw [file?_eq_none_iff.2 hn] at h
  cases h

theorem carries_iff : g.Carries id file ↔ g.file? id = some (some file) := by
  constructor
  · rintro ⟨row, hrow, rfl, hfile⟩
    rw [file?, find?_eq_of_mem hrow, Option.map_some, hfile]
  · intro h
    obtain ⟨row, hfind, hfile⟩ := Option.map_eq_some_iff.1 h
    exact ⟨row, List.mem_of_find?_eq_some hfind, by simpa using List.find?_some hfind, hfile⟩

theorem Carries.stored (h : g.Carries id file) : g.Stored id :=
  let ⟨row, hrow, hid, _⟩ := h
  ⟨row, hrow, hid⟩

/-- A node has one file at most. -/
theorem Carries.unique {file' : String} (h : g.Carries id file) (h' : g.Carries id file') :
    file = file' := by
  rw [carries_iff] at h h'
  rw [h] at h'
  exact Option.some.inj (Option.some.inj h')

theorem mem_seeds : id ∈ g.seeds path ↔ g.Carries id path := by
  simp only [seeds, Carries, List.mem_map, List.mem_filter, decide_eq_true_eq]
  exact ⟨fun ⟨row, ⟨hrow, hfile⟩, hid⟩ => ⟨row, hrow, hid, hfile⟩,
    fun ⟨row, hrow, hid, hfile⟩ => ⟨row, ⟨hrow, hfile⟩, hid⟩⟩

theorem Adjacent.symm (h : g.Adjacent x y) : g.Adjacent y x :=
  let ⟨edge, hedge, hends⟩ := h
  ⟨edge, hedge, hends.symm⟩

theorem mem_neighbors : y ∈ g.neighbors x ↔ g.Adjacent x y := by
  simp only [neighbors, List.mem_map, List.mem_filter, EdgeRow.touches, EdgeRow.neighborOf,
    Bool.or_eq_true, beq_iff_eq]
  constructor
  · rintro ⟨edge, ⟨hedge, hends⟩, rfl⟩
    refine ⟨edge, hedge, ?_⟩
    split
    · exact .inl ⟨‹_›, rfl⟩
    · exact .inr ⟨rfl, hends.resolve_left ‹_›⟩
  · rintro ⟨edge, hedge, ⟨hs, ht⟩ | ⟨hs, ht⟩⟩
    · exact ⟨edge, ⟨hedge, .inl hs⟩, by rw [if_pos hs, ht]⟩
    · refine ⟨edge, ⟨hedge, .inr ht⟩, ?_⟩
      split
      · rw [ht, ← ‹edge.source = x›, hs]
      · exact hs

/-! ## Distances -/

theorem Hops.unique (h : g.Hops path id k) (h' : g.Hops path id l) : k = l := IsLeast.unique h h'

theorem FileHops.unique (h : g.FileHops path file k) (h' : g.FileHops path file l) : k = l :=
  IsLeast.unique h h'

/-- Whatever is reached has a distance. -/
theorem Reaches.hops (h : g.Reaches path k id) : ∃ l ≤ k, g.Hops path id l := by
  classical
  have hex : ∃ l, g.Reaches path l id := ⟨k, h⟩
  exact ⟨Nat.find hex, Nat.find_min' hex h, Nat.isLeast_find hex⟩

/-- Whatever file is reached has a distance. -/
theorem Reaches.fileHops (h : g.Reaches path k id) (hc : g.Carries id file) :
    ∃ l ≤ k, g.FileHops path file l := by
  classical
  have hex : ∃ l, ∃ id, g.Reaches path l id ∧ g.Carries id file := ⟨k, id, h, hc⟩
  exact ⟨Nat.find hex, Nat.find_min' hex ⟨id, h, hc⟩, Nat.isLeast_find hex⟩

/-- A walk to a stored node is walked back at the end of another one. -/
theorem Reaches.back (h : g.Reaches path k x) (hstored : g.Stored x)
    (hfrom : g.Reaches file l x) : ∃ id, g.Reaches file (l + k) id ∧ g.Carries id path := by
  induction h generalizing l with
  | seed hc => exact ⟨_, hfrom, hc⟩
  | @step k x y _ hx hadj ih =>
    obtain ⟨id, hid, hc⟩ := ih hx (.step hfrom hstored hadj.symm)
    exact ⟨id, Nat.add_right_comm l 1 k ▸ hid, hc⟩

/-- A walk between nodes of two files leads either way. -/
theorem exists_reaches_comm : (∃ id, g.Reaches path k id ∧ g.Carries id file) ↔
    ∃ id, g.Reaches file k id ∧ g.Carries id path := by
  have hback {path file : String} (h : ∃ id, g.Reaches path k id ∧ g.Carries id file) :
      ∃ id, g.Reaches file k id ∧ g.Carries id path := by
    obtain ⟨id, hr, hc⟩ := h
    exact Nat.zero_add k ▸ hr.back hc.stored (.seed hc)
  exact ⟨hback, hback⟩

/-- A file lies at distance zero from itself, if any node carries it. -/
theorem Carries.fileHops (h : g.Carries id path) : g.FileHops path path 0 :=
  ⟨⟨id, .seed h, h⟩, fun _ _ => Nat.zero_le _⟩

/-- No other file lies at distance zero. -/
theorem FileHops.eq_of_zero (h : g.FileHops path file 0) : file = path := by
  obtain ⟨⟨id, hr, hc⟩, _⟩ := h
  cases hr with
  | seed hseed => exact hc.unique hseed

end Graph

/-! ## Sources that read a graph -/

/-- The answers of a source are those of a graph, unless it fails. -/
structure Impact.Source.Reads {ε : Type} (source : Impact.Source (Except ε)) (g : Graph) :
    Prop where
  /-- The nodes of a file are the seeds of the walks. -/
  nodesAt {path : String} {nodes : List Node} :
    source.nodesAt path = .ok nodes → nodes.map Node.id = g.seeds path
  /-- A node is stored or not, with its file. -/
  node? {id : String} {node : Option Node} :
    source.node? id = .ok node → node.map Node.filePath = g.file? id
  /-- The edges of a node lead to its neighbours. -/
  edgesOf {id : String} {edges : List Edge} :
    source.edgesOf id = .ok edges → edges.map (·.neighborOf id) = g.neighbors id

end Ripple
