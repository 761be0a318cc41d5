import Ripple.Proofs.Json.RoundTrip
import Ripple.Proofs.Store.NodeTable
import Ripple.Proofs.Store.Rows
import Ripple.Proofs.Store.Writes
import Ripple.Proofs.Time.Rfc3339

/-!
# What has been stored

The nodes that were stored in a database are a list, in order of time. Of an identifier the
last one counts (`latest?`), and its place is that of the first (`currentNodes`). This is what
the rows hold (`Tables.Records`, `Tables.Records.rows`): a row that is replaced stays in its
place and keeps nothing of what it held.

A row that can be read shows the node that was stored, with the instant at which it was stored
as its timestamp (`Stored.ShownAs`). It can be read if the clock shows a year of four digits
and if the metadata do not nest too deeply (`Stored.exists_decode`).
-/

namespace Ripple

/-- A node that was stored and the instant at which it was. -/
structure Stored where
  /-- The node. -/
  node : Node
  /-- The instant, which need not be the timestamp of the node. -/
  now : Instant

/-- The row of a node that was stored. -/
def Stored.row (u : Stored) : NodeRow := .ofNode u.node u.now

/-- The node that a write stores. -/
def Write.stored? : Write → Option Stored
  | .putNode node now => some ⟨node, now⟩
  | .putEdge _ => none

/-- The last of some stored nodes under an identifier. -/
def latest? (id : String) (past : List Stored) : Option Stored :=
  past.reverse.find? (·.node.id = id)

/-- The last of some stored nodes under each identifier, in the order in which the identifiers
    were stored first. -/
def currentNodes (past : List Stored) : List Stored :=
  (past.map (·.node.id)).eraseDups.filterMap (latest? · past)

variable {id path : String} {past : List Stored} {u : Stored}

theorem latest?_append_singleton (id : String) (past : List Stored) (u : Stored) :
    latest? id (past ++ [u]) = if u.node.id = id then some u else latest? id past := by
  rw [latest?, List.reverse_append, List.reverse_singleton, List.singleton_append, List.find?_cons]
  by_cases h : u.node.id = id <;> simp [h, latest?]

theorem latest?_eq_none : latest? id past = none ↔ ∀ u ∈ past, u.node.id ≠ id := by
  simp [latest?]

/-- Current nodes have been stored. -/
theorem mem_of_mem_currentNodes (h : u ∈ currentNodes past) : u ∈ past := by
  obtain ⟨id, -, hu⟩ := List.mem_filterMap.1 h
  exact List.mem_reverse.1 (List.mem_of_find?_eq_some hu)

theorem eraseDups_append_singleton (ids : List String) (id : String) :
    (ids ++ [id]).eraseDups = if id ∈ ids then ids.eraseDups else ids.eraseDups ++ [id] := by
  rw [List.eraseDups_append]
  by_cases h : id ∈ ids <;> simp [List.removeAll, h, List.eraseDups_cons]

/-! ## Rows -/

/-- The rows of a table are those of the nodes that were stored. -/
structure NodeTable.Records (table : NodeTable) (past : List Stored) : Prop where
  /-- Under each identifier stands the node that was stored last. -/
  find? (id : String) : table.find? id = (latest? id past).map Stored.row
  /-- The identifiers stand in the order in which they were stored first. -/
  ids : table.rows.map NodeRow.id = (past.map (·.node.id)).eraseDups

namespace NodeTable.Records

variable {table : NodeTable}

theorem nil : Records ⟨[], true, true, List.nodup_nil⟩ [] := ⟨fun _ => rfl, rfl⟩

theorem put (h : table.Records past) (u : Stored) : (table.put u.row).Records (past ++ [u]) where
  find? id := by
    rw [latest?_append_singleton]
    refine (find?_putRow u.row table.rows id).trans ?_
    rw [← NodeTable.find?, h.find? id]
    by_cases hid : u.node.id = id
    · rw [if_pos hid, if_pos (show u.row.id = id from hid), Option.map_some]
    · rw [if_neg hid, if_neg (show ¬u.row.id = id from hid)]
  ids := by
    refine (ids_putRow u.row table.rows).trans ?_
    rw [h.ids, List.map_append, List.map_singleton, eraseDups_append_singleton]
    simp only [List.mem_eraseDups]
    rfl

/-- The rows are those of the current nodes. -/
theorem rows (h : table.Records past) : table.rows = (currentNodes past).map Stored.row := by
  rw [currentNodes, List.map_filterMap, ← h.ids]
  simp only [← h.find?]
  exact (filterMap_find?_ids table.distinct).symm

end NodeTable.Records

namespace Tables

/-- The table of nodes is that of the nodes that were stored. -/
def Records (t : Tables) (past : List Stored) : Prop :=
  ∃ table, t.nodes = some table ∧ table.Records past

variable {t : Tables}

theorem records_fresh : fresh.Records [] := ⟨_, rfl, .nil⟩

/-- A write adds the node that it stores to those that were stored. -/
theorem Records.apply (h : t.Records past) (ht : t.IsCurrent) (write : Write) :
    (write.apply t).Records (past ++ write.stored?.toList) := by
  obtain ⟨nodes, edges, index, rfl⟩ := ht
  obtain ⟨table, htable, h⟩ := h
  obtain rfl : nodes = table := Option.some.inj htable
  cases write with
  | putNode node now => exact ⟨_, rfl, h.put ⟨node, now⟩⟩
  | putEdge edge =>
    rw [Write.stored?, Option.toList_none, List.append_nil]
    exact ⟨_, rfl, h⟩

/-- Writes add the nodes that they store to those that were stored. -/
theorem Records.foldl_apply (h : t.Records past) (ht : t.IsCurrent) (writes : List Write) :
    (writes.foldl Write.apply t).Records (past ++ writes.filterMap Write.stored?) :=
  ht.foldl_record (P := Records) (fun ht h write => h.apply ht write) h writes

end Tables

/-! ## What is read -/

/-- What a node is read as after it has been stored. -/
structure Stored.ShownAs (u : Stored) (node : Node) : Prop where
  id : node.id = u.node.id
  kind : node.kind = u.node.kind
  name : node.name = u.node.name
  filePath : node.filePath = u.node.filePath
  content : node.content = u.node.content
  /-- The timestamp is the instant at which the node was stored. -/
  updatedAt : 0 ≤ u.now.date.year ∧ u.now.date.year ≤ 9999 → node.updatedAt = u.now
  /-- There are metadata if there were some. -/
  metadata_none : node.metadata = none ↔ u.node.metadata = none
  /-- Metadata without doubles are those that were stored. -/
  metadata (value : Json) : u.node.metadata = some value → value.Ordered →
    node.metadata = some value

/-- Whether a row of a node can be read. -/
structure Stored.Readable (u : Stored) : Prop where
  /-- The clock showed a year of four digits. -/
  year : 0 ≤ u.now.date.year ∧ u.now.date.year ≤ 9999
  /-- The numbers of the metadata are of 64 bits, and they do not nest too deeply. -/
  metadata (value : Json) : u.node.metadata = some value →
    value.Sound ∧ value.depth ≤ Json.depthLimit

theorem decodeMetadata_some {text : String} {metadata : Option Json} :
    decodeMetadata (some text) = .ok metadata ↔
      ∃ value, Json.parse text = .ok value ∧ metadata = some value := by
  rw [decodeMetadata, mapError_eq_ok]
  cases Json.parse text with
  | error e => simp [Except.map]
  | ok value => simp [Except.map, eq_comm]

/-- What is read from the text of metadata: nothing if there were none, and metadata without
    doubles as they were. -/
theorem metadata_of_decodeMetadata {metadata m : Option Json}
    (h : decodeMetadata (metadata.map Json.text) = .ok m) :
    (m = none ↔ metadata = none) ∧
      ∀ value, metadata = some value → value.Ordered → m = some value := by
  cases metadata with
  | none =>
    obtain rfl : none = m := Except.ok.inj h
    simp
  | some stored =>
    obtain ⟨value, hparse, rfl⟩ := decodeMetadata_some.1 h
    refine ⟨by simp, ?_⟩
    rintro _ ⟨⟩ hordered
    rw [Json.eq_of_parse_text hordered hparse]

/-- Metadata can be read from their text if and only if they do not nest too deeply. -/
theorem exists_decodeMetadata_iff {metadata : Option Json}
    (hsound : ∀ value ∈ metadata, value.Sound) :
    (∃ m, decodeMetadata (metadata.map Json.text) = .ok m) ↔
      ∀ value ∈ metadata, value.depth ≤ Json.depthLimit := by
  cases metadata with
  | none => exact iff_of_true ⟨none, rfl⟩ (by simp)
  | some value =>
    have hread := Json.exists_parse_text_iff (hsound value rfl)
    simpa [decodeMetadata_some] using hread

/-- What is read from the row of a node that has been stored while the clock showed a year of four
    digits. -/
theorem NodeRow.decode_ofNode (node : Node) {now : Instant}
    (hyear : 0 ≤ now.date.year ∧ now.date.year ≤ 9999) :
    (ofNode node now).decode = (decodeMetadata (node.metadata.map Json.text)).map fun metadata =>
      { node with metadata, updatedAt := now } := by
  simp only [decode, ofNode, Instant.readStrict_columnText hyear]
  cases decodeMetadata (node.metadata.map Json.text) <;> rfl

theorem NodeRow.exists_decode_ofNode_iff {node : Node} {now : Instant}
    (hyear : 0 ≤ now.date.year ∧ now.date.year ≤ 9999) :
    (∃ read, (ofNode node now).decode = .ok read) ↔
      ∃ metadata, decodeMetadata (node.metadata.map Json.text) = .ok metadata := by
  rw [decode_ofNode node hyear]
  cases decodeMetadata (node.metadata.map Json.text) <;> simp [Except.map]

namespace Stored

variable {node : Node}

theorem shownAs_of_decode (h : u.row.decode = .ok node) : u.ShownAs node := by
  obtain ⟨metadata, updatedAt, hmetadata, hupdatedAt, rfl⟩ := NodeRow.decode_eq_ok.1 h
  -- The columns of text are read as they stand; the other two have to be read back.
  obtain ⟨hnone, hsome⟩ := metadata_of_decodeMetadata hmetadata
  refine ⟨rfl, rfl, rfl, rfl, rfl, fun hyear => ?_, hnone, hsome⟩
  exact Except.ok.inj (hupdatedAt.symm.trans (Instant.readStrict_columnText hyear))

/-- A row of a node can be read if and only if the metadata do not nest too deeply. -/
theorem exists_decode_iff (hyear : 0 ≤ u.now.date.year ∧ u.now.date.year ≤ 9999)
    (hsound : ∀ value ∈ u.node.metadata, value.Sound) :
    (∃ node, u.row.decode = .ok node) ↔
      ∀ value ∈ u.node.metadata, value.depth ≤ Json.depthLimit := by
  rw [row, NodeRow.exists_decode_ofNode_iff hyear, exists_decodeMetadata_iff hsound]

theorem exists_decode (h : u.Readable) : ∃ node, u.row.decode = .ok node :=
  (exists_decode_iff h.year fun value hvalue => (h.metadata value hvalue).1).2
    fun value hvalue => (h.metadata value hvalue).2

end Stored

namespace Tables.Records

variable {t : Tables}

/-- The current nodes have distinct identifiers. -/
theorem nodup_ids (h : t.Records past) : ((currentNodes past).map (·.node.id)).Nodup := by
  obtain ⟨table, -, hrecords⟩ := h
  have hdistinct := table.distinct
  rwa [hrecords.rows, List.map_map] at hdistinct

theorem node?_eq_ok (h : t.Records past) {node? : Option Node} :
    t.node? id = .ok node? ↔ (latest? id past = none ∧ node? = none) ∨
      ∃ u node, latest? id past = some u ∧ u.row.decode = .ok node ∧ node? = some node := by
  obtain ⟨table, htable, hrecords⟩ := h
  rw [Tables.node?_eq_ok]
  constructor
  · rintro ⟨table', htable', hnode⟩
    obtain rfl : table' = table := Option.some.inj (htable'.symm.trans htable)
    simp only [hrecords.find?, Option.map_eq_none_iff, Option.map_eq_some_iff] at hnode
    rcases hnode with hnone | ⟨_, node, ⟨u, hu, rfl⟩, hdecode, hnode⟩
    · exact .inl hnone
    · exact .inr ⟨u, node, hu, hdecode, hnode⟩
  · intro hnode
    refine ⟨table, htable, ?_⟩
    simp only [hrecords.find?, Option.map_eq_none_iff, Option.map_eq_some_iff]
    rcases hnode with hnone | ⟨u, node, hu, hdecode, hnode⟩
    · exact .inl hnone
    · exact .inr ⟨_, node, ⟨u, hu, rfl⟩, hdecode, hnode⟩

theorem nodesAt_eq_ok (h : t.Records past) {nodes : List Node} :
    t.nodesAt path = .ok nodes ↔ List.Forall₂ (fun u node => u.row.decode = .ok node)
      ((currentNodes past).filter (·.node.filePath = some path)) nodes := by
  obtain ⟨table, htable, hrecords⟩ := h
  have hrows : table.rows.filter (·.filePath = some path) =
      ((currentNodes past).filter (·.node.filePath = some path)).map Stored.row := by
    rw [hrecords.rows, List.filter_map]
    rfl
  rw [Tables.nodesAt_eq_ok]
  constructor
  · rintro ⟨table', htable', hdecode⟩
    obtain rfl : table' = table := Option.some.inj (htable'.symm.trans htable)
    rw [hrows, List.forall₂_map_left_iff] at hdecode
    exact hdecode
  · intro hdecode
    refine ⟨table, htable, ?_⟩
    rw [hrows, List.forall₂_map_left_iff]
    exact hdecode

end Tables.Records

end Ripple
