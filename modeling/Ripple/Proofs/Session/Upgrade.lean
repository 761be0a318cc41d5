import Ripple.Proofs.Session.Searches
import Ripple.Proofs.Session.Upserts

/-!
# Databases without a text index

The second version of the schema adds a text index without rows, and a row gets into it only when
its node is stored. So after a database has been brought up to date from the first version, the
text index holds the nodes that are stored from then on (`Tables.IndexesSince`), and a query finds
those among them that match. The nodes that had been stored before stay where they are, and no
query finds them (`searchRows_of_unindexed`). The text index is complete if and only if there were
none.
-/

namespace Ripple

namespace Tables

/-- Tables of the first version. -/
structure Unindexed (t : Tables) : Prop where
  nodes : t.nodes.isSome
  edges : t.edges.isSome
  index : t.index = none
  version : (t.versions.getD []).max? = some 1

variable {t : Tables} {old : NodeTable} {ids : List String}

/-- From the first version on, a text index without rows is added and nothing else is changed. -/
theorem Unindexed.migrate (h : t.Unindexed) :
    t.migrate = ({ t with
      index := some []
      versions := some (t.versions.getD [] ++ [2]) }, .ok ()) := by
  have hnew : 2 ∉ t.versions.getD [] := fun hmem => by
    have hle := (List.max?_eq_some_iff.1 h.version).2 2 hmem
    omega
  have hversion : t.withVersions.version = .ok 1 := by
    have hsame : t.withVersions.versions.getD [] = t.versions.getD [] := rfl
    rw [Tables.version, hsame, h.version]
    rfl
  have hmigrate : t.migrate = t.withVersions.runAll [.createIndex, .record 2] := by
    rw [Tables.migrate, hversion]
    rfl
  rw [hmigrate]
  simp [runAll, SchemaStatement.apply, withVersions, h.index, hnew]

/-- The text index holds the nodes under some identifiers, and the others are those of an old
    table. -/
def IndexesSince (old : NodeTable) (ids : List String) (t : Tables) : Prop :=
  ∃ nodes index, t.nodes = some nodes ∧ t.index = some index ∧
    (index.map IndexRow.entry).Perm ((nodes.rows.filter (·.id ∈ ids)).map NodeRow.entry) ∧
    nodes.rows.filter (·.id ∉ ids) = old.rows.filter (·.id ∉ ids)

/-- A write puts the node that it stores into the text index. -/
theorem IndexesSince.apply (h : t.IndexesSince old ids) (write : Write) :
    (write.apply t).IndexesSince old (ids ++ write.stored?.toList.map (·.node.id)) := by
  obtain ⟨nodes, index, hnodes, hindex, hmirrors, hold⟩ := h
  cases write with
  | putEdge edge =>
    rw [Write.stored?, Option.toList_none, List.map_nil, List.append_nil]
    rcases t with ⟨_, _ | edges, _, _⟩ <;> exact ⟨nodes, index, hnodes, hindex, hmirrors, hold⟩
  | putNode node now =>
    rw [Write.apply, upsert_of_some hnodes hindex]
    let row : NodeRow := .ofNode node now
    refine ⟨_, _, rfl, rfl, ?_, ?_⟩
    · rw [entries_reindex node now]
      refine ((hmirrors.filter _).append_right _).trans ?_
      -- What was in the text index stays there, unless it is replaced.
      have hkept : (nodes.rows.filter (·.id ≠ row.id)).filter (·.id ∈ ids ++ [node.id]) =
          (nodes.rows.filter (·.id ∈ ids)).filter (·.id ≠ node.id) := by
        simp only [List.filter_filter]
        refine List.filter_congr fun other _ => ?_
        by_cases hid : other.id = node.id <;> simp [hid, row, NodeRow.ofNode]
      have hput := (NodeTable.perm_putRow row nodes.distinct).filter (·.id ∈ ids ++ [node.id])
      rw [List.filter_cons_of_pos (by simp [row, NodeRow.ofNode]), hkept] at hput
      refine .trans ?_ (hput.map NodeRow.entry).symm
      rw [List.map_cons, List.filter_map]
      exact List.perm_append_singleton _ _
    · -- The row that is put is none of the others, and neither is one that it replaces.
      have hput : (nodes.put row).rows.filter (·.id ∉ ids ++ [node.id]) =
          nodes.rows.filter (·.id ∉ ids ++ [node.id]) :=
        NodeTable.filter_putRow_of_not (by simp [row, NodeRow.ofNode]) fun other _ hid => by
          simp [hid, row, NodeRow.ofNode]
      have hothers (rows : List NodeRow) : rows.filter (·.id ∉ ids ++ [node.id]) =
          (rows.filter (·.id ∉ ids)).filter (·.id ≠ node.id) := by
        rw [List.filter_filter]
        refine List.filter_congr fun other _ => ?_
        simp [not_or, and_comm]
      have hrest : nodes.rows.filter (·.id ∉ ids ++ [node.id]) =
          old.rows.filter (·.id ∉ ids ++ [node.id]) := by rw [hothers, hothers, hold]
      exact hput.trans hrest

/-- Writes put the nodes that they store into the text index. -/
theorem IndexesSince.foldl_apply (h : t.IndexesSince old ids) (writes : List Write) :
    (writes.foldl Write.apply t).IndexesSince old
      (ids ++ (writes.filterMap Write.stored?).map (·.node.id)) := by
  induction writes generalizing t ids with
  | nil => rwa [List.filterMap_nil, List.map_nil, List.append_nil]
  | cons write writes ih =>
    have hrest := ih (h.apply write)
    rw [List.append_assoc, ← List.map_append] at hrest
    rw [List.foldl_cons]
    convert hrest using 3
    rw [List.filterMap_cons]
    cases write.stored? <;> rfl

/-- A query finds the nodes that match among those in the text index. -/
theorem IndexesSince.searchRows (h : t.IndexesSince old ids) {engine : FullText.Engine}
    {text : String} {matcher : FullText.Matcher} (hmatcher : engine.matcher? text = some matcher)
    (limit : ℕ) :
    ∃ (nodes : NodeTable) (found : List NodeRow), t.nodes = some nodes ∧
      found.Perm (nodes.rows.filter fun row => row.id ∈ ids ∧ matcher.finds row.texts) ∧
      t.searchRows engine text limit = .ok (found.take limit, .index) := by
  obtain ⟨nodes, index, hnodes, hindex, hmirrors, -⟩ := h
  obtain ⟨found, hfound, hsearch⟩ := searchRows_of_indexed hnodes hindex
    (List.filter_subset_self _) (perm_texts hmirrors) hmatcher limit
  refine ⟨nodes, found, hnodes, hfound.trans (.of_eq ?_), hsearch⟩
  rw [List.filter_filter]
  refine List.filter_congr fun row _ => ?_
  simp [Bool.and_comm]

end Tables

/-- Nodes are stored in tables of the first version, the tables are brought up to date, and then
    there are any writes. The upgrade succeeds, but the text index has a row for each node only if
    there is no node. After the writes the nodes that they have not stored stand as they did, and
    a query finds the nodes that match among those that they have stored, up to the limit. It does
    not fall back on looking through all nodes. -/
theorem searchRows_of_unindexed {t : Tables} (h : t.Unindexed) {old : NodeTable}
    (hold : t.nodes = some old) (writes : List Write) {engine : FullText.Engine} {text : String}
    {matcher : FullText.Matcher} (hmatcher : engine.matcher? text = some matcher)
    (limit : ℕ) :
    let ids := (writes.filterMap Write.stored?).map (·.node.id)
    ∃ t', t.migrate = (t', .ok ()) ∧ (t'.Mirrored ↔ old.rows = []) ∧
      ∃ (nodes : NodeTable) (found : List NodeRow),
        (writes.foldl Write.apply t').nodes = some nodes ∧
        nodes.rows.filter (·.id ∉ ids) = old.rows.filter (·.id ∉ ids) ∧
        found.Perm (nodes.rows.filter fun row => row.id ∈ ids ∧ matcher.finds row.texts) ∧
        (writes.foldl Write.apply t').searchRows engine text limit =
          .ok (found.take limit, .index) := by
  intro ids
  refine ⟨_, h.migrate, ?_, ?_⟩
  · constructor
    · rintro ⟨nodes, index, hnodes, hindex, hperm⟩
      obtain rfl : old = nodes := Option.some.inj (hold.symm.trans hnodes)
      obtain rfl : [] = index := Option.some.inj hindex
      exact List.map_eq_nil_iff.1 hperm.nil_eq.symm
    · intro hnone
      exact ⟨old, [], hold, rfl, by rw [hnone]; exact .nil⟩
  · -- The text index is empty at first, and then holds what the writes store.
    let t' : Tables := { t with index := some [], versions := some (t.versions.getD [] ++ [2]) }
    have hempty : t'.IndexesSince old [] := ⟨old, [], hold, rfl, by simp, rfl⟩
    have hsince : (writes.foldl Write.apply t').IndexesSince old ids :=
      hempty.foldl_apply writes
    obtain ⟨nodes, found, hnodes, hfound, hsearch⟩ := hsince.searchRows hmatcher limit
    obtain ⟨nodes', -, hnodes', -, -, hothers⟩ := hsince
    obtain rfl : nodes = nodes' := Option.some.inj (hnodes.symm.trans hnodes')
    exact ⟨nodes, found, hnodes, hothers, hfound, hsearch⟩

/-- A note in tables of the first version. -/
def Tables.unindexed : Tables :=
  { (Write.putNode (.note "a" "red") .epoch).apply .fresh with
    index := none
    versions := some [1] }

theorem Tables.unindexed_unindexed : Tables.unindexed.Unindexed := ⟨rfl, rfl, rfl, rfl⟩

/-- After the upgrade another note is stored. Both match a query, which finds the second one. -/
theorem searchRows_of_unindexed_red :
    let later : List Write := [.putNode (.note "b" "red") .epoch]
    let t' := Tables.unindexed.migrate.1
    Tables.unindexed.Unindexed ∧ ¬t'.Mirrored ∧
      ∃ found, (later.foldl Write.apply t').searchRows .standard "red" 10 = .ok (found, .index) ∧
        found.map NodeRow.id = ["b"] := by
  intro later t'
  let request : FullText.Request := .query (.token [114, 101, 100])
  have hrequest : FullText.Request.ofText? "red" = some request := by decide +kernel
  obtain ⟨t₁, hmigrate, hmirrored, nodes, found, hnodes, -, hfound, hsearch⟩ :=
    searchRows_of_unindexed Tables.unindexed_unindexed rfl later
      (FullText.Engine.matcher?_standard hrequest) 10
  obtain rfl : t' = t₁ := congrArg Prod.fst hmigrate
  refine ⟨Tables.unindexed_unindexed, fun h => absurd (hmirrored.1 h) (by decide), _, hsearch, ?_⟩
  obtain rfl := Option.some.inj hnodes
  have hmatch : found.Perm [.ofNode (.note "b" "red") .epoch] := by
    refine hfound.trans (.of_eq ?_)
    decide +kernel
  rw [List.perm_singleton.1 hmatch]
  rfl

/-- The upgrade succeeds, and the note is there and matches the query. But the text index has no
    row for it, and the query does not find it. -/
theorem mirrored_migrate_fails_red :
    Tables.unindexed.Unindexed ∧ Tables.unindexed.migrate.2 = .ok () ∧
      (∃ node matcher, Tables.unindexed.migrate.1.node? "a" = .ok (some node) ∧
        FullText.Engine.standard.matcher? "red" = some matcher ∧
        matcher.finds node.texts = true) ∧
      ¬Tables.unindexed.migrate.1.Mirrored ∧
      Tables.unindexed.migrate.1.search .standard "red" 10 = .ok ([], .index) := by
  let request : FullText.Request := .query (.token [114, 101, 100])
  have hrequest : FullText.Request.ofText? "red" = some request := by decide +kernel
  have hmatcher := FullText.Engine.matcher?_standard hrequest
  have hindex : Tables.unindexed.migrate.1.index = some [] := rfl
  refine ⟨Tables.unindexed_unindexed, rfl, ?_, ?_, ?_⟩
  · obtain ⟨node, hdecode⟩ := Stored.exists_decode_note "a" "red"
    have htexts : node.texts = (Node.note "a" "red").texts := by
      have hshown := Stored.shownAs_of_decode hdecode
      simp [Node.texts, Node.indexedContent, hshown.name, hshown.content]
    refine ⟨node, request.matcher,
      Tables.node?_eq_ok.2 ⟨_, rfl, .inr ⟨_, node, rfl, hdecode, rfl⟩⟩, hmatcher, ?_⟩
    rw [htexts]
    decide +kernel
  · rintro ⟨nodes, index, hnodes, hindex', hperm⟩
    obtain rfl := Option.some.inj hnodes
    obtain rfl := Option.some.inj (hindex.symm.trans hindex')
    exact absurd hperm.nil_eq (by decide)
  · refine Tables.search_eq_ok.2 ⟨[], Tables.searchRows_of_some ?_, .nil⟩
    have hranked : request.matcher.rank [] = [] := (request.matcher.perm_rank []).eq_nil
    rw [Tables.indexedRows?_eq rfl hindex, hmatcher, Option.map_some, List.map_nil, hranked]
    rfl

end Ripple
