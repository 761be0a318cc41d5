import Ripple.Proofs.Session.Mirror
import Ripple.Proofs.Session.Reads
import Ripple.Proofs.Store.Search

/-!
# Searches after a run

After a run the text index has the texts of the current nodes, each once
(`Session.indexed_texts`). So a search that it answers finds the nodes whose current text
matches, whatever was stored under their identifiers before (`indexed_run`). A search that it
cannot answer finds the current nodes that hold the text as it stands, in the order in which
their identifiers were stored first (`scanned_run`).

No text makes a search fail but one that is no query and too long to be looked for
(`find_eq_error_iff`).
-/

namespace Ripple

/-- The texts of a node that are indexed. -/
def Node.texts (node : Node) : FullText.Texts := ⟨node.name, node.indexedContent⟩

/-- Whether a text stands in the name or in the content of a node as it is, but for the case of
    ASCII letters. -/
def Node.Holds (text : String) (node : Node) : Prop :=
  FullText.lowerCase text.toList <:+: FullText.lowerCase node.name.toList ∨
    FullText.lowerCase text.toList <:+: FullText.lowerCase node.indexedContent.toList

instance (text : String) (node : Node) : Decidable (node.Holds text) :=
  inferInstanceAs (Decidable (_ ∨ _))

/-- The row of a node holds a text if the node does, as far as all is compared as it stands. -/
theorem Stored.holds_row_iff {u : Stored} {text : String} (htext : FullText.IsPlain text)
    (hname : FullText.IsPlain u.node.name) (hcontent : FullText.IsPlain u.node.indexedContent) :
    u.row.holds (.ofText text) = true ↔ u.node.Holds text := by
  rw [NodeRow.holds, Bool.or_eq_true]
  exact or_congr (FullText.Sought.isIn_iff_of_isPlain htext hname)
    (FullText.Sought.isIn_iff_of_isPlain htext hcontent)

/-- Texts are part of what the text index should hold of a node. -/
theorem perm_texts {index : List IndexRow} {rows : List NodeRow}
    (h : (index.map IndexRow.entry).Perm (rows.map NodeRow.entry)) :
    (index.map fun row => (row.nodeId, row.texts)).Perm
      (rows.map fun row => (row.id, row.texts)) := by
  have htexts := h.map fun (id, name, content) => (id, (⟨name, content⟩ : FullText.Texts))
  rwa [List.map_map, List.map_map] at htexts

namespace Session

variable {s : Session} {t : Tables} {text : String} {limit : UInt64}

theorem searchDirectly_result (h : s.workspace.tables? = some t) :
    (searchDirectly text limit).result s = t.search s.engine text limit := by
  have hresult : (searchDirectly text limit).result s =
      s.workspace.read (·.search s.engine text limit) := rfl
  rw [hresult, Workspace.read, Workspace.tables, h]
  rfl

/-- A search at the gate finds what one past it does. -/
theorem find_of_search {found : List Node} {route : SearchRoute}
    (h : s.workspace.tables? = some t) (hpass : (s.gate.pass .search).2 = true)
    (hsearch : t.search s.engine text limit = .ok (found, route)) :
    (find text limit).result s = .ok found := by
  rw [find, (Action.get_bind _ s).1, query_of_pass h hpass, hsearch]
  rfl

/-- A search at a gate that refuses nothing fails if and only if the tables fail it. -/
theorem find_eq_error (hs : s.Serves t) {e : GraphError} :
    (find text limit).result s = .error e ↔ t.search s.engine text limit = .error e := by
  rw [find, (Action.get_bind _ s).1, (query_answers _ _ s hs).1]
  cases t.search s.engine text limit <;> simp [Except.map]

/-- After a run the rows are those of the current nodes, and the text index has their texts. -/
theorem indexed_texts (h : s.workspace.tables? = some Tables.empty.migrate.1)
    (calls : List Call) :
    ∃ t nodes index, (s.run calls).workspace.tables? = some t ∧ t.nodes = some nodes ∧
      t.index = some index ∧ nodes.rows = (currentNodes (s.stored calls)).map Stored.row ∧
      (index.map fun row => (row.nodeId, row.texts)).Perm
        (nodes.rows.map fun row => (row.id, row.texts)) := by
  obtain ⟨nodes, hnodes, hrecords⟩ :=
    Tables.records_fresh.foldl_apply .fresh (s.writes calls)
  obtain ⟨nodes', index, hnodes', hindex, hmirrored⟩ :=
    Tables.mirrored_fresh.foldl_apply .fresh (s.writes calls)
  obtain rfl : nodes = nodes' := Option.some.inj (hnodes.symm.trans hnodes')
  exact ⟨_, nodes, index, tables?_run h .fresh calls, hnodes, hindex, hrecords.rows,
    perm_texts hmirrored⟩

end Session

/-- After any run from a database that has just been made, a text that is no query finds the
    current nodes that hold it, in the order in which their identifiers were stored first and up
    to the limit. All texts are compared as they stand, the pattern is not too long and the nodes
    can be read. -/
theorem scanned_run {s : Session} (h : s.workspace.tables? = some Tables.empty.migrate.1)
    (calls : List Call) {text : String} (hrefused : s.engine.matcher? text = none)
    (hsize : (FullText.Sought.ofText text).patternSize ≤ FullText.Sought.maxPatternSize)
    (htext : FullText.IsPlain text)
    (hnodes : ∀ u ∈ currentNodes (s.stored calls),
      FullText.IsPlain u.node.name ∧ FullText.IsPlain u.node.indexedContent)
    (hread : ∀ u ∈ currentNodes (s.stored calls), ∃ node, u.row.decode = .ok node)
    {limit : UInt64} (hlimit : 1 ≤ limit) :
    ∃ found, (Session.searchDirectly text limit).result (s.run calls) = .ok (found, .scan) ∧
      List.Forall₂ Stored.ShownAs
        (((currentNodes (s.stored calls)).filter (·.node.Holds text)).take limit.toNat) found ∧
      (((s.run calls).gate.pass .search).2 = true →
        (Session.find text limit).result (s.run calls) = .ok found) := by
  obtain ⟨t, nodes, index, ht, htable, hindex, hrows, -⟩ := Session.indexed_texts h calls
  rw [← s.engine_run calls] at hrefused
  -- The rows that are found are those of the nodes that hold the text.
  have hheld : nodes.rows.filter (·.holds (.ofText text)) =
      ((currentNodes (s.stored calls)).filter (·.node.Holds text)).map Stored.row := by
    rw [hrows, List.filter_map]
    refine congrArg _ (List.filter_congr fun u hu => ?_)
    rw [Function.comp_apply, Bool.eq_iff_iff, decide_eq_true_eq]
    exact Stored.holds_row_iff htext (hnodes u hu).1 (hnodes u hu).2
  have hzero : limit.toNat ≠ 0 := Nat.one_le_iff_ne_zero.1 (UInt64.le_iff_toNat_le.1 hlimit)
  have hfound := Tables.searchRows_of_refused htable hindex hrefused hzero hsize
  rw [hheld, ← List.map_take] at hfound
  obtain ⟨found, hdecode⟩ := Tables.exists_forall₂_decode
    (Tables.subset_of_searchRows htable hfound) (by rwa [hrows, List.forall_mem_map])
  have hsearch := Tables.search_eq_ok.2 ⟨_, hfound, hdecode⟩
  refine ⟨found, ?_, ?_, fun hpass => Session.find_of_search ht hpass hsearch⟩
  · rw [Session.searchDirectly_result ht, hsearch]
  · rw [List.forall₂_map_left_iff] at hdecode
    exact hdecode.imp fun u node => Stored.shownAs_of_decode

/-- A note with some content. -/
def Node.note (id content : String) : Node := ⟨id, "note", id, none, some content, none, .epoch⟩

theorem Stored.exists_decode_note (id content : String) :
    ∃ node, (Stored.row ⟨.note id content, .epoch⟩).decode = .ok node :=
  have hyear : 0 ≤ Instant.epoch.date.year ∧ Instant.epoch.date.year ≤ 9999 := by decide
  exists_decode ⟨hyear, by rintro _ ⟨⟩⟩

/-- Three notes are stored, and two of them again with another content. -/
def Session.discounts : List Call :=
  [.upsert (fun _ => none) (.note "a" "none") .epoch,
    .upsert (fun _ => none) (.note "b" "10%_off") .epoch,
    .upsert (fun _ => none) (.note "c" "100%_OFF") .epoch,
    .upsert (fun _ => none) (.note "b" "1000 off") .epoch,
    .upsert (fun _ => none) (.note "a" "now 50%_off") .epoch]

theorem Session.currentNodes_discounts :
    currentNodes ((ofTables .fresh).stored discounts) =
      [⟨.note "a" "now 50%_off", .epoch⟩, ⟨.note "b" "1000 off", .epoch⟩,
        ⟨.note "c" "100%_OFF", .epoch⟩] := rfl

theorem Session.readable_discounts :
    ∀ u ∈ currentNodes ((ofTables .fresh).stored discounts), ∃ node, u.row.decode = .ok node := by
  rw [currentNodes_discounts]
  simp only [List.forall_mem_cons]
  exact ⟨Stored.exists_decode_note _ _, Stored.exists_decode_note _ _,
    Stored.exists_decode_note _ _, by simp⟩

/-- A text with both wildcards finds the notes that hold it, and not the one that it would only
    describe. -/
theorem scanned_run_discounts :
    (Session.ofTables .fresh).workspace.tables? = some Tables.empty.migrate.1 ∧
      FullText.Engine.standard.matcher? "0%_oF" = none ∧
      ∃ found, (Session.searchDirectly "0%_oF" 10).result
          ((Session.ofTables .fresh).run Session.discounts) = .ok (found, .scan) ∧
        found.map Node.id = ["a", "c"] := by
  have hrefused : FullText.Engine.standard.matcher? "0%_oF" = none :=
    FullText.Engine.matcher?_standard_eq_none.2 (by decide +kernel)
  have hsize : (FullText.Sought.ofText "0%_oF").patternSize ≤ FullText.Sought.maxPatternSize := by
    decide +kernel
  have htext : FullText.IsPlain "0%_oF" := by decide +kernel
  have hnodes : ∀ u ∈ currentNodes ((Session.ofTables .fresh).stored Session.discounts),
      FullText.IsPlain u.node.name ∧ FullText.IsPlain u.node.indexedContent := by
    rw [Session.currentNodes_discounts]
    decide +kernel
  have hlimit : (1 : UInt64) ≤ 10 := by decide
  obtain ⟨found, hfound, hshown, -⟩ := scanned_run (s := .ofTables .fresh) rfl Session.discounts
    hrefused hsize htext hnodes Session.readable_discounts hlimit
  refine ⟨rfl, hrefused, found, hfound, ?_⟩
  rw [map_eq_of_forall₂ (f := (·.node.id)) (fun u node hu => hu.id) hshown,
    Session.currentNodes_discounts]
  rfl

/-! ## Matches -/

/-- What a query finds among the current nodes, up to a limit. -/
structure FoundAmong (current : List Stored) (matcher : FullText.Matcher) (limit : ℕ)
    (found : List Node) : Prop where
  /-- As many nodes are found as match, or as the limit allows. -/
  length : found.length = min limit (current.countP (matcher.finds ·.node.texts))
  /-- Each is found once. -/
  nodup : (found.map Node.id).Nodup
  /-- What is found is a current node that matches. -/
  sound (node : Node) : node ∈ found →
    ∃ u ∈ current, u.ShownAs node ∧ matcher.finds u.node.texts = true
  /-- If the limit allows, the nodes that match are found and no others. -/
  complete : current.countP (matcher.finds ·.node.texts) ≤ limit → ∀ u ∈ current,
    u.node.id ∈ found.map Node.id ↔ matcher.finds u.node.texts = true

/-- The rows that match, in any order and up to a limit, show what a query finds. -/
theorem foundAmong_of_rows {current : List Stored} {matcher : FullText.Matcher} {limit : ℕ}
    {nodes : NodeTable} (hcurrent : nodes.rows = current.map Stored.row) {rows : List NodeRow}
    (hrows : rows.Perm (nodes.rows.filter (matcher.finds ·.texts))) {found : List Node}
    (hfound : List.Forall₂ (fun row node => row.decode = .ok node) (rows.take limit) found) :
    FoundAmong current matcher limit found := by
  have hcount : rows.length = current.countP (matcher.finds ·.node.texts) := by
    rw [hrows.length_eq, ← List.countP_eq_length_filter, hcurrent, List.countP_map]
    rfl
  have hids : found.map Node.id = (rows.take limit).map NodeRow.id :=
    map_eq_of_forall₂ (fun row node hdecode => by
      obtain ⟨_, _, -, -, rfl⟩ := NodeRow.decode_eq_ok.1 hdecode
      rfl) hfound
  have hmem {row : NodeRow} (hrow : row ∈ rows) :
      row ∈ nodes.rows ∧ matcher.finds row.texts = true :=
    List.mem_filter.1 (hrows.mem_iff.1 hrow)
  refine ⟨?_, ?_, fun node hnode => ?_, fun hlimit u hu => ?_⟩
  · rw [← hfound.length_eq, List.length_take, hcount]
  · rw [hids]
    have hsub := List.filter_sublist (p := fun row => matcher.finds row.texts) (l := nodes.rows)
    have hnodup := (hrows.map NodeRow.id).nodup_iff.2 (nodes.distinct.sublist (hsub.map _))
    exact hnodup.sublist ((List.take_sublist _ _).map _)
  · obtain ⟨row, hrow, hdecode⟩ := exists_of_forall₂ hfound hnode
    obtain ⟨htable, hfinds⟩ := hmem (List.mem_of_mem_take hrow)
    rw [hcurrent] at htable
    obtain ⟨u, hu, rfl⟩ := List.mem_map.1 htable
    exact ⟨u, hu, Stored.shownAs_of_decode hdecode, hfinds⟩
  · -- The limit cuts nothing.
    have hrow : u.row ∈ nodes.rows := hcurrent ▸ List.mem_map_of_mem hu
    rw [hids, List.take_of_length_le (hcount.trans_le hlimit), List.mem_map]
    constructor
    · rintro ⟨row, hrow', hid⟩
      obtain ⟨htable, hfinds⟩ := hmem hrow'
      obtain rfl := List.inj_on_of_nodup_map nodes.distinct htable hrow hid
      exact hfinds
    · intro hfinds
      exact ⟨u.row, hrows.mem_iff.2 (List.mem_filter.2 ⟨hrow, hfinds⟩), rfl⟩

/-- After any run from a database that has just been made, a text that is a query finds nodes
    whose current text matches, each once and as it is read by its identifier; all of them if the
    limit allows, and otherwise as many as it allows. The nodes can be read. -/
theorem indexed_run {s : Session} (h : s.workspace.tables? = some Tables.empty.migrate.1)
    (calls : List Call) {text : String} {matcher : FullText.Matcher}
    (hmatcher : s.engine.matcher? text = some matcher)
    (hread : ∀ u ∈ currentNodes (s.stored calls), ∃ node, u.row.decode = .ok node)
    (limit : UInt64) :
    ∃ found, (Session.searchDirectly text limit).result (s.run calls) = .ok (found, .index) ∧
      FoundAmong (currentNodes (s.stored calls)) matcher limit.toNat found ∧
      (((s.run calls).gate.pass .getNode).2 = true → ∀ node ∈ found,
        (Session.getNode node.id).result (s.run calls) = .ok (some node)) ∧
      (((s.run calls).gate.pass .search).2 = true →
        (Session.find text limit).result (s.run calls) = .ok found) := by
  obtain ⟨t, nodes, index, ht, htable, hindex, hcurrent, htexts⟩ := Session.indexed_texts h calls
  rw [← s.engine_run calls] at hmatcher
  obtain ⟨rows, hrows, hsearchRows⟩ :=
    Tables.searchRows_of_matcher htable hindex htexts hmatcher limit.toNat
  have hsubset := Tables.subset_of_searchRows htable hsearchRows
  obtain ⟨found, hfound⟩ := Tables.exists_forall₂_decode hsubset
    (by rwa [hcurrent, List.forall_mem_map])
  have hsearch := Tables.search_eq_ok.2 ⟨_, hsearchRows, hfound⟩
  refine ⟨found, ?_, foundAmong_of_rows hcurrent hrows hfound, fun hpass node hnode => ?_,
    fun hpass => Session.find_of_search ht hpass hsearch⟩
  · rw [Session.searchDirectly_result ht, hsearch]
  · obtain ⟨row, hrow, hdecode⟩ := exists_of_forall₂ hfound hnode
    have hfind := NodeTable.find?_eq_of_mem nodes.distinct (hsubset hrow)
    rw [Session.getNode, Session.query_of_pass ht hpass, Tables.node?_eq_ok]
    refine ⟨nodes, htable, .inr ⟨row, node, ?_, hdecode, rfl⟩⟩
    obtain ⟨_, _, -, -, rfl⟩ := NodeRow.decode_eq_ok.1 hdecode
    exact hfind

/-- A query for any token of any name or content. -/
def FullText.Query.token (token : FullText.Token) : FullText.Query :=
  .leaf ⟨Column.all, [⟨[⟨token, false⟩], false⟩], defaultDistance⟩

/-- A query for words of two notes finds the one that still has the word. -/
theorem indexed_run_discounts :
    (Session.ofTables .fresh).workspace.tables? = some Tables.empty.migrate.1 ∧
      ∃ found, (Session.searchDirectly "none OR 1000" 10).result
          ((Session.ofTables .fresh).run Session.discounts) = .ok (found, .index) ∧
        found.map Node.id = ["b"] := by
  let request : FullText.Request := .query
    (.either (.token [110, 111, 110, 101]) (.token [49, 48, 48, 48]))
  have hrequest : FullText.Request.ofText? "none OR 1000" = some request := by decide +kernel
  have hmatcher : FullText.Engine.standard.matcher? "none OR 1000" = some request.matcher :=
    FullText.Engine.matcher?_standard hrequest
  obtain ⟨found, hfound, hamong, -⟩ := indexed_run (s := .ofTables .fresh) rfl Session.discounts
    hmatcher Session.readable_discounts 10
  refine ⟨rfl, found, hfound, ?_⟩
  rw [Session.currentNodes_discounts] at hamong
  -- One note matches, so one is found, and it is the one that matches.
  have hcount : List.countP (fun u : Stored => request.matcher.finds u.node.texts)
      [⟨.note "a" "now 50%_off", .epoch⟩, ⟨.note "b" "1000 off", .epoch⟩,
        ⟨.note "c" "100%_OFF", .epoch⟩] = 1 := by decide +kernel
  have hlength := hamong.length
  have hcomplete := hamong.complete
  rw [hcount] at hlength hcomplete
  have hmem := (hcomplete (by decide) ⟨.note "b" "1000 off", .epoch⟩ (by simp)).2
    (by decide +kernel)
  obtain ⟨node, rfl⟩ := List.length_eq_one_iff.1 hlength
  rw [List.map_singleton, List.mem_singleton] at hmem
  rw [List.map_singleton, ← hmem]
  rfl

/-! ## Failures -/

/-- Among nodes that can be read, no text makes a search fail but one that is no query and too
    long for a pattern, at the gate and before it. It does if there is a node and if the limit is
    not zero. -/
theorem find_eq_error_iff {s : Session} {t : Tables} (hs : s.Serves t) {nodes : NodeTable}
    {index : List IndexRow} (hnodes : t.nodes = some nodes) (hindex : t.index = some index)
    (hread : ∀ row ∈ nodes.rows, ∃ node, row.decode = .ok node) (text : String) (limit : UInt64)
    (e : GraphError) :
    ((Session.find text limit).result s = .error e ↔
      e = .storage (.engine .patternTooComplex) ∧ limit ≠ 0 ∧ nodes.rows ≠ [] ∧
        s.engine.Unsearchable text) ∧
    ((Session.searchAtMost text limit).result s = .error e ↔
      e = .storage (.engine .patternTooComplex) ∧ limit ≠ 0 ∧ nodes.rows ≠ [] ∧
        s.engine.Unsearchable text) := by
  have hfind : (Session.find text limit).result s = .error e ↔ _ :=
    (Session.find_eq_error hs).trans (Tables.search_eq_error hnodes hindex hread)
  refine ⟨hfind, ?_⟩
  by_cases hnothing : text = "" ∨ limit = 0
  · rw [Session.searchAtMost, if_pos hnothing]
    refine iff_of_false (fun hfails => ?_) ?_
    · cases hfails
    · rintro ⟨-, hlimit, -, hlong⟩
      exact hnothing.elim hlong.ne_empty hlimit
  · rw [Session.searchAtMost, if_neg hnothing, hfind]

/-- A short text that is no query makes no search fail. -/
theorem find_eq_error_iff_percent :
    let t := (Write.putNode (.note "a" "100%") .epoch).apply .fresh
    (Session.ofTables t).Serves t ∧ FullText.Engine.standard.matcher? "%" = none ∧
      ∀ limit, (∃ found, (Session.find "%" limit).result (.ofTables t) = .ok found) ∧
        ∃ found, (Session.searchAtMost "%" limit).result (.ofTables t) = .ok found := by
  intro t
  have hserves := Session.ofTables_serves t
  have hrefused : FullText.Engine.standard.matcher? "%" = none :=
    FullText.Engine.matcher?_standard_eq_none.2
      (FullText.Request.ofText?_eq_none rfl (by decide) (by decide))
  refine ⟨hserves, hrefused, fun limit => ?_⟩
  have herror := find_eq_error_iff hserves rfl rfl
    (List.forall_mem_singleton.2 (Stored.exists_decode_note "a" "100%")) "%" limit
  have hshort : ¬FullText.Engine.standard.Unsearchable "%" :=
    fun hlong => absurd hlong.2 (by decide)
  refine ⟨by_contra fun hnone => ?_, by_contra fun hnone => ?_⟩ <;>
    obtain ⟨e, he⟩ := exists_error_iff.2 hnone
  · exact hshort ((herror e).1.1 he).2.2.2
  · exact hshort ((herror e).2.1 he).2.2.2

/-- In a pattern a wildcard takes two bytes, so half as many as there is room for are too many. -/
theorem FullText.unsearchable_percents {n : ℕ} (h : 25000 ≤ n) :
    Engine.standard.Unsearchable (String.ofList (List.replicate n '%')) := by
  constructor
  · obtain ⟨m, rfl⟩ := Nat.exists_eq_add_of_le' h
    have hchars : (String.ofList (List.replicate (m + 25000) '%')).toList =
        '%' :: List.replicate (m + 24999) '%' := by
      rw [String.toList_ofList, List.replicate_succ]
    exact Engine.matcher?_standard_eq_none.2
      (Request.ofText?_eq_none hchars (by decide) (by decide))
  · have hwild : isWild '%' = true := rfl
    have hbytes (n : ℕ) : String.utf8Len (List.replicate n '%') = n := by
      induction n with
      | zero => rfl
      | succ n ih =>
        rw [List.replicate_succ, String.utf8Len_cons, ih]
        rfl
    rw [String.utf8ByteSize_ofList, String.toList_ofList, List.countP_replicate, if_pos hwild,
      hbytes, Sought.maxPatternSize]
    omega

/-- A note is stored. After that a search for 25000 wildcards fails, though all can be read. -/
theorem find_fails_percents :
    (Session.upsertNode (.note "a" "100%") .epoch).result (.ofTables .fresh) = .ok () ∧
      let s := (Session.upsertNode (.note "a" "100%") .epoch).after (.ofTables .fresh)
      let text := String.ofList (List.replicate 25000 '%')
      (∃ t nodes, s.Serves t ∧ t.IsCurrent ∧ t.nodes = some nodes ∧
        ∀ row ∈ nodes.rows, ∃ node, row.decode = .ok node) ∧
      (¬∃ found, (Session.find text 10).result s = .ok found) ∧
        ¬∃ found, (Session.searchAtMost text 10).result s = .ok found := by
  refine ⟨rfl, ?_⟩
  intro s text
  let t : Tables := (Write.putNode (.note "a" "100%") .epoch).apply .fresh
  have hs : s.Serves t := ⟨rfl, fun _ => rfl⟩
  have hread : ∀ row ∈ [Stored.row ⟨.note "a" "100%", .epoch⟩], ∃ node, row.decode = .ok node :=
    List.forall_mem_singleton.2 (Stored.exists_decode_note "a" "100%")
  have hlong : FullText.Engine.standard.Unsearchable text := FullText.unsearchable_percents le_rfl
  have hfind : (Session.find text 10).result s =
      .error (.storage (.engine .patternTooComplex)) :=
    (Session.find_eq_error hs).2
      ((Tables.search_eq_error rfl rfl hread).2 ⟨rfl, by decide, by decide, hlong⟩)
  have hsome : ¬(text = "" ∨ (10 : UInt64) = 0) := not_or_intro hlong.ne_empty (by decide)
  refine ⟨⟨t, _, hs, .apply .fresh _, rfl, hread⟩, ?_, ?_⟩
  · rw [hfind]
    exact nofun
  · rw [Session.searchAtMost, if_neg hsome, hfind]
    exact nofun

end Ripple
