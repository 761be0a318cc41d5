import Ripple.Proofs.Session.Searches

/-!
# Reads that meet bad rows

A read of several rows gives all of their values in order, or fails as the first row that
cannot be decoded does (`ReadsAll`). The nodes of a file, the edges of a node and the nodes
that a search returns are read in this way, whatever the texts in the rows are
(`readsAll_rows`).

A bad row does not change what a search returns: the index answers all the same, and the
rows for a limit are the first of those for a greater one (`Tables.searchRows_of_le`). So a
search that fails goes on failing, in the same way, when its limit is raised
(`Tables.search_error_of_le`).
-/

namespace Ripple

/-- The outcome of a read of some rows, in order. -/
structure ReadsAll {ε α β : Type} (decode : α → Except ε β) (rows : List α)
    (outcome : Except ε (List β)) : Prop where
  /-- The read fails if some row cannot be decoded, and only then. -/
  fails_iff : (∃ e, outcome = .error e) ↔ ∃ row ∈ rows, ∃ e, decode row = .error e
  /-- It fails as the first such row does. -/
  eq_error_iff {e : ε} : outcome = .error e ↔ ∃ before row after, rows = before ++ row :: after ∧
    (∀ other ∈ before, ∃ value, decode other = .ok value) ∧ decode row = .error e
  /-- Otherwise it gives the value of each row. -/
  eq_ok_iff {values : List β} : outcome = .ok values ↔
    List.Forall₂ (fun row value => decode row = .ok value) rows values

theorem readsAll_mapM {ε α β : Type} (decode : α → Except ε β) (rows : List α) :
    ReadsAll decode rows (rows.mapM decode) where
  fails_iff := by simp only [exists_error_iff, exists_mapM_ok_iff, not_forall, exists_prop]
  eq_error_iff := mapM_eq_error
  eq_ok_iff := mapM_eq_ok

/-! ## Rows -/

/-- Metadata that cannot be read are a text that is no JSON. -/
theorem decodeMetadata_eq_error {metadata : Option String} {e : GraphError} :
    decodeMetadata metadata = .error e ↔
      ∃ text fault, metadata = some text ∧ Json.parse text = .error fault ∧
        e = .metadata fault ∧ e.code = "E401" := by
  cases metadata with
  | none => simp [decodeMetadata]
  | some text =>
    rw [decodeMetadata]
    cases hparse : Json.parse text with
    | error fault =>
      simp only [Except.map, Except.mapError, Except.error.injEq]
      constructor
      · rintro rfl
        exact ⟨text, fault, rfl, hparse, rfl, rfl⟩
      · rintro ⟨_, fault', ⟨⟩, hfault, rfl, -⟩
        rw [Except.error.inj (hparse.symm.trans hfault)]
    | ok value => simp [Except.map, Except.mapError, hparse]

theorem exists_decodeMetadata_iff_parse {metadata : Option String} :
    (∃ value, decodeMetadata metadata = .ok value) ↔
      ∀ text, metadata = some text → ∃ value, Json.parse text = .ok value := by
  cases metadata with
  | none => simp [decodeMetadata]
  | some text => simp [decodeMetadata, mapError_eq_ok, map_eq_ok]

theorem EdgeRow.decode_eq_error {row : EdgeRow} {e : GraphError} :
    row.decode = .error e ↔
      ∃ text fault, row.metadata = some text ∧ Json.parse text = .error fault ∧
        e = .metadata fault ∧ e.code = "E401" := by
  rw [← decodeMetadata_eq_error, decode]
  cases decodeMetadata row.metadata <;> simp [pure, Except.pure]

/-- The metadata of a node are read first, and its timestamp only if they can be read. -/
theorem NodeRow.decode_eq_error {row : NodeRow} {e : GraphError} :
    row.decode = .error e ↔
      (∃ text fault, row.metadata = some text ∧ Json.parse text = .error fault ∧
        e = .metadata fault ∧ e.code = "E401") ∨
      (∀ text, row.metadata = some text → ∃ value, Json.parse text = .ok value) ∧
        ∃ fault, Instant.readStrict row.updatedAt = .error fault ∧
          e = .storage (.timestamp fault) ∧ e.code = "E400" := by
  rw [← decodeMetadata_eq_error, ← exists_decodeMetadata_iff_parse, decode]
  cases decodeMetadata row.metadata with
  | error e' => simp
  | ok metadata =>
    cases Instant.readStrict row.updatedAt with
    | error fault =>
      simp only [ok_bind, Except.mapError, error_bind, Except.error.injEq, reduceCtorEq, false_or,
        Except.ok.injEq, exists_eq', true_and]
      constructor
      · rintro rfl
        exact ⟨fault, rfl, rfl, rfl⟩
      · rintro ⟨_, rfl, rfl, -⟩
        rfl
    | ok instant => simp [Except.mapError, pure, Except.pure]

/-! ## Searches -/

namespace Tables

variable {t : Tables} {engine : FullText.Engine} {text : String}

/-- The rows for a limit are the first of those for a greater one, found in the same way. -/
theorem searchRows_of_le {limit limit' : ℕ} (hlimit : limit ≠ 0) (hle : limit ≤ limit') :
    t.searchRows engine text limit =
      (t.searchRows engine text limit').map fun found => (found.1.take limit, found.2) := by
  have hlimit' : limit' ≠ 0 := by omega
  have hmin : min limit limit' = limit := Nat.min_eq_left hle
  have hindexed : t.indexedRows? engine text limit =
      (t.indexedRows? engine text limit').map (·.take limit) := by
    rw [indexedRows?, indexedRows?]
    split
    · rw [if_neg hlimit, if_neg hlimit', Option.map_map]
      congr 1
      funext matcher
      simp [List.take_take, hmin]
    · rfl
  have hscanned : t.scannedRows text limit = (t.scannedRows text limit').map (·.take limit) := by
    rw [scannedRows, scannedRows]
    cases t.needNodes with
    | error e => rfl
    | ok table =>
      simp only [ok_bind, ne_eq, hlimit, hlimit', not_false_eq_true, true_and]
      split
      · rfl
      · simp [List.take_take, hmin, pure, Except.pure, Except.map]
  rw [searchRows, searchRows, hindexed, hscanned]
  cases t.indexedRows? engine text limit' with
  | some rows => rfl
  | none => cases t.scannedRows text limit' <;> rfl

theorem searchRows_of_nodes_none (h : t.nodes = none) (engine : FullText.Engine) (text : String)
    (limit : ℕ) :
    t.searchRows engine text limit = missing "nodes" := by
  simp only [searchRows, indexedRows?, scannedRows, needNodes, h]
  rfl

/-- A search for no rows returns none, whatever its text is. -/
theorem searchRows_zero {nodes : NodeTable} (h : t.nodes = some nodes) (engine : FullText.Engine)
    (text : String) : ∃ route, t.searchRows engine text 0 = .ok ([], route) := by
  cases hindex : t.index with
  | none =>
    refine ⟨.scan, ?_⟩
    simp only [searchRows, indexedRows?, scannedRows, needNodes, h, hindex]
    rfl
  | some index =>
    refine ⟨.index, searchRows_of_some ?_⟩
    rw [indexedRows?_eq h hindex, if_pos rfl]

/-- A search reads the rows that it returns. -/
theorem search_of_searchRows {limit : UInt64} {rows : List NodeRow} {route : SearchRoute}
    (h : t.searchRows engine text limit.toNat = .ok (rows, route)) :
    t.search engine text limit = (rows.mapM NodeRow.decode).map (·, route) := by
  rw [search, h]
  change (rows.mapM NodeRow.decode >>= fun nodes => pure (nodes, route)) = _
  cases rows.mapM NodeRow.decode <;> rfl

/-- A search that fails does so in the same way with a greater limit. -/
theorem search_error_of_le {limit limit' : UInt64} (hle : limit ≤ limit') {e : GraphError}
    (h : t.search engine text limit = .error e) : t.search engine text limit' = .error e := by
  by_cases hlimit : limit.toNat = 0
  · -- A search for no rows fails for want of a table, as any other does then.
    cases hnodes : t.nodes with
    | none =>
      rw [search, searchRows_of_nodes_none hnodes] at h ⊢
      exact h
    | some nodes =>
      obtain ⟨route, hrows⟩ := searchRows_zero hnodes engine text
      rw [← hlimit] at hrows
      rw [search_of_searchRows hrows] at h
      cases h
  · have hrows : t.searchRows engine text limit.toNat = _ :=
      searchRows_of_le hlimit (UInt64.le_iff_toNat_le.1 hle)
    cases hrows' : t.searchRows engine text limit'.toNat with
    | error fault =>
      rw [search, hrows, hrows'] at h
      rw [search, hrows']
      exact h
    | ok found =>
      obtain ⟨rows, route⟩ := found
      rw [hrows'] at hrows
      rw [search_of_searchRows hrows, map_eq_error] at h
      rw [search_of_searchRows hrows', mapM_eq_error_of_take h]
      rfl

end Tables

variable {s : Session} {t : Tables}

/-- A read of several rows is that of all the rows that its statement returns, in order: those of
    a file, those of edges at a node, or those that a search returns for its limit. What it fails
    with is that of the first row that cannot be decoded, and metadata come before the timestamp.
    A search by the index is one whatever the rows hold, and a search that fails does not succeed
    with a greater limit. -/
theorem readsAll_rows (hs : s.Serves t) :
    (∀ nodes path, t.nodes = some nodes →
      ReadsAll NodeRow.decode (nodes.rows.filter (·.filePath = some path))
        ((Session.nodesAt path).result s)) ∧
    (∀ edges id, t.edges = some edges →
      ReadsAll EdgeRow.decode (edges.rows.filter (·.touches id))
        ((Session.edgesOf id).result s)) ∧
    (∀ text limit rows route, t.searchRows s.engine text limit.toNat = .ok (rows, route) →
      ∃ outcome, (Session.searchDirectly text limit).result s = outcome.map (·, route) ∧
        ReadsAll NodeRow.decode rows outcome) ∧
    (∀ text limit rows, t.indexedRows? s.engine text limit.toNat = some rows →
      ∃ outcome, (Session.searchDirectly text limit).result s = outcome.map (·, .index) ∧
        ReadsAll NodeRow.decode rows outcome) ∧
    (∀ text limit limit', limit ≠ 0 → limit ≤ limit' → t.searchRows s.engine text limit =
      (t.searchRows s.engine text limit').map fun found => (found.1.take limit, found.2)) ∧
    (∀ text limit limit' e, limit ≤ limit' →
      (Session.searchDirectly text limit).result s = .error e →
      (Session.searchDirectly text limit').result s = .error e) ∧
    (∀ (row : NodeRow) e, row.decode = .error e ↔
      (∃ text fault, row.metadata = some text ∧ Json.parse text = .error fault ∧
        e = .metadata fault ∧ e.code = "E401") ∨
      (∀ text, row.metadata = some text → ∃ value, Json.parse text = .ok value) ∧
        ∃ fault, Instant.readStrict row.updatedAt = .error fault ∧
          e = .storage (.timestamp fault) ∧ e.code = "E400") ∧
    ∀ (row : EdgeRow) e, row.decode = .error e ↔
      ∃ text fault, row.metadata = some text ∧ Json.parse text = .error fault ∧
        e = .metadata fault ∧ e.code = "E401" := by
  have hsearch (text limit rows route)
      (h : t.searchRows s.engine text limit.toNat = .ok (rows, route)) :
      ∃ outcome, (Session.searchDirectly text limit).result s = outcome.map (·, route) ∧
        ReadsAll NodeRow.decode rows outcome := by
    refine ⟨rows.mapM NodeRow.decode, ?_, readsAll_mapM _ _⟩
    rw [Session.searchDirectly_result hs.tables, Tables.search_of_searchRows h]
  refine ⟨fun nodes path hnodes => ?_, fun edges id hedges => ?_, hsearch,
    fun text limit rows h => hsearch text limit rows .index (Tables.searchRows_of_some h),
    fun text limit limit' => Tables.searchRows_of_le, fun text limit limit' e hle h => ?_,
    fun row e => NodeRow.decode_eq_error, fun row e => EdgeRow.decode_eq_error⟩
  · rw [Session.nodesAt, (Session.query_answers _ _ s hs).1, Tables.nodesAt_of_some hnodes]
    exact readsAll_mapM _ _
  · rw [Session.edgesOf, (Session.query_answers _ _ s hs).1, Tables.edgesOf_of_some hedges]
    exact readsAll_mapM _ _
  · rw [Session.searchDirectly_result hs.tables] at h ⊢
    exact Tables.search_error_of_le hle h

/-- Three notes in a file, with a sign in each. Neither the metadata nor the timestamp of the
    second can be read, and only the timestamp of the third cannot. -/
def Tables.frayed : Tables where
  nodes := some {
    rows :=
      [⟨"a", "note", "a", some "f", some "10%", none, Instant.epoch.columnText⟩,
        ⟨"b", "note", "b", some "f", some "half 50%", some "[", "never"⟩,
        ⟨"c", "note", "c", some "f", some "90%", none, "never"⟩]
    byFile := true
    byKind := true
    distinct := by decide }
  edges := some ⟨[], 0, true, true⟩
  index := some [⟨1, "a", "a", "10%"⟩, ⟨2, "b", "b", "half 50%"⟩, ⟨3, "c", "c", "90%"⟩]
  versions := some [1, 2]

theorem readsAll_rows_frayed :
    (Session.ofTables .frayed).Serves .frayed ∧
      (Session.nodesAt "f").result (.ofTables .frayed) = .error (.metadata ⟨.endInList, 1, 1⟩) ∧
      (Session.searchDirectly "half" 1).result (.ofTables .frayed) =
        .error (.metadata ⟨.endInList, 1, 1⟩) ∧
      (∃ nodes, (Session.searchDirectly "%" 1).result (.ofTables .frayed) = .ok (nodes, .scan)) ∧
      (Session.searchDirectly "%" 2).result (.ofTables .frayed) =
        .error (.metadata ⟨.endInList, 1, 1⟩) ∧
      (Session.searchDirectly "%" 3).result (.ofTables .frayed) =
        .error (.metadata ⟨.endInList, 1, 1⟩) := by
  let a : NodeRow := ⟨"a", "note", "a", some "f", some "10%", none, Instant.epoch.columnText⟩
  let b : NodeRow := ⟨"b", "note", "b", some "f", some "half 50%", some "[", "never"⟩
  let c : NodeRow := ⟨"c", "note", "c", some "f", some "90%", none, "never"⟩
  have hs := Session.ofTables_serves .frayed
  obtain ⟨hfile, -, hsearch, hindexed, -, hraise, hrow, -⟩ := readsAll_rows hs
  have ha : ∃ node, a.decode = .ok node :=
    ⟨_, NodeRow.decode_eq_ok.2 ⟨none, .epoch, rfl, by decide, rfl⟩⟩
  have hb : b.decode = .error (.metadata ⟨.endInList, 1, 1⟩) :=
    (hrow b _).2 (.inl ⟨"[", _, rfl, by cbv, rfl, rfl⟩)
  -- One document matches, so there is one order of what is found.
  have hhalf : Tables.frayed.indexedRows? .standard "half" 1 = some [b] := by
    let index : List IndexRow :=
      [⟨1, "a", "a", "10%"⟩, ⟨2, "b", "b", "half 50%"⟩, ⟨3, "c", "c", "90%"⟩]
    let request : FullText.Request := .query (.token [104, 97, 108, 102])
    have hrequest : FullText.Request.ofText? "half" = some request := by decide +kernel
    have hmatcher : FullText.Engine.standard.matcher? "half" = some request.matcher :=
      FullText.Engine.matcher?_standard hrequest
    have hrank := request.matcher.perm_rank (index.map fun row => (row.nodeId, row.texts))
    have hfinds : ((index.map fun row => (row.nodeId, row.texts)).filter
        (request.matcher.finds ·.2)).map Prod.fst = ["b"] := by
      decide +kernel
    rw [hfinds, List.perm_singleton] at hrank
    rw [Tables.indexedRows?_eq (t := .frayed) rfl rfl, if_neg (by decide), hmatcher,
      Option.map_some, hrank]
    rfl
  have hsign (limit : ℕ) (h : limit ≠ 0) :
      Tables.frayed.searchRows .standard "%" limit = .ok ([a, b, c].take limit, .scan) := by
    have hrefused : FullText.Engine.standard.matcher? "%" = none :=
      FullText.Engine.matcher?_standard_eq_none.2
        (FullText.Request.ofText?_eq_none rfl (by decide) (by decide))
    have hsize : (FullText.Sought.ofText "%").patternSize ≤ FullText.Sought.maxPatternSize := by
      decide
    have hheld : [a, b, c].filter (·.holds (.ofText "%")) = [a, b, c] := by decide +kernel
    rw [Tables.searchRows_of_refused (t := .frayed) rfl rfl hrefused h hsize]
    exact congrArg (fun rows : List NodeRow => Except.ok (rows.take limit, SearchRoute.scan)) hheld
  have htwo : (Session.searchDirectly "%" 2).result (.ofTables .frayed) =
      .error (.metadata ⟨.endInList, 1, 1⟩) := by
    obtain ⟨outcome, houtcome, hreads⟩ := hsearch "%" 2 _ _ (hsign 2 (by decide))
    rw [houtcome, hreads.eq_error_iff.2 ⟨[a], b, [], rfl, by simpa using ha, hb⟩]
    rfl
  refine ⟨hs, ?_, ?_, ?_, htwo, hraise "%" 2 3 _ (by decide) htwo⟩
  · exact (hfile _ "f" rfl).eq_error_iff.2 ⟨[a], b, [c], rfl, by simpa using ha, hb⟩
  · obtain ⟨outcome, houtcome, hreads⟩ := hindexed "half" 1 _ hhalf
    rw [houtcome, hreads.eq_error_iff.2 ⟨[], b, [], rfl, by simp, hb⟩]
    rfl
  · obtain ⟨outcome, houtcome, hreads⟩ := hsearch "%" 1 _ _ (hsign 1 (by decide))
    obtain ⟨node, hnode⟩ := ha
    exact ⟨[node], by rw [houtcome, hreads.eq_ok_iff.2 (.cons hnode .nil)]; rfl⟩

end Ripple
