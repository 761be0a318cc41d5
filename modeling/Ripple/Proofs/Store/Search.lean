import Ripple.Store.Search
import Ripple.Proofs.FullText.Substring
import Ripple.Proofs.Store.Rows

/-!
# Rows that a search returns

A text that is a query is answered by the text index. If this has the texts of some nodes then the
rows that it finds are those whose texts match, in some order and up to the limit
(`searchRows_of_indexed`).

Any other text is looked for in the rows themselves, which come in their own order
(`searchRows_of_refused`), unless the pattern is too long. Nothing else makes a search of rows
that can be read fail (`search_eq_error`).
-/

namespace Ripple

/-! ## Search texts -/

namespace FullText

/-- A text is no query if it begins with a character that begins no symbol. -/
theorem Request.ofText?_eq_none {text : String} {c : Char} {rest : List Char}
    (htext : text.toList = c :: rest) (hnul : c ≠ '\x00') (hstart : Symbol.start c = none) :
    ofText? text = none := by
  have hstar : c ≠ '*' := by
    rintro rfl
    exact absurd hstart (by decide)
  have hchars : text.toList.takeWhile (· ≠ '\x00') = c :: rest.takeWhile (· ≠ '\x00') := by
    rw [htext, List.takeWhile_cons, if_pos (decide_eq_true hnul)]
  have hread (more : List Char) : Query.ofText? (c :: more) = none := by
    rw [Query.ofText?, Symbol.readAll, Symbol.step, hstart]
    rfl
  rw [ofText?, hchars]
  split
  · rename_i hcons
    exact absurd (List.cons.inj hcons).1 hstar
  · rw [hread, Option.map_none]

theorem Engine.matcher?_standard {text : String} {request : Request}
    (h : Request.ofText? text = some request) :
    standard.matcher? text = some request.matcher := congrArg (Option.map Request.matcher) h

theorem Engine.matcher?_standard_eq_none {text : String} :
    standard.matcher? text = none ↔ Request.ofText? text = none := Option.map_eq_none_iff

/-- A text that an engine refuses and for which there is no pattern: with a backslash before each
    wildcard and a wildcard at either end it has too many bytes. -/
def Engine.Unsearchable (engine : Engine) (text : String) : Prop :=
  engine.matcher? text = none ∧
    Sought.maxPatternSize < text.utf8ByteSize + text.toList.countP isWild + 2

theorem Engine.Unsearchable.ne_empty {engine : Engine} {text : String}
    (h : engine.Unsearchable text) : text ≠ "" := by
  rintro rfl
  exact absurd h.2 (by decide)

end FullText

/-- The texts of a row. -/
def NodeRow.texts (row : NodeRow) : FullText.Texts := ⟨row.name, row.content.getD ""⟩

/-! ## Rows -/

namespace Tables

variable {t : Tables} {engine : FullText.Engine} {nodes : NodeTable} {index : List IndexRow}
  {text : String} {limit : ℕ}

theorem indexedRows?_eq (hnodes : t.nodes = some nodes) (hindex : t.index = some index) :
    t.indexedRows? engine text limit =
      if limit = 0 then some []
      else (engine.matcher? text).map fun matcher =>
        ((matcher.rank (index.map fun row => (row.nodeId, row.texts))).filterMap
          (nodes.find? ·)).take limit := by
  simp only [indexedRows?, hnodes, hindex]

/-- The text index answers unless the text is no query. -/
theorem indexedRows?_eq_none (hnodes : t.nodes = some nodes) (hindex : t.index = some index) :
    t.indexedRows? engine text limit = none ↔
      limit ≠ 0 ∧ engine.matcher? text = none := by
  rw [indexedRows?_eq hnodes hindex]
  by_cases hlimit : limit = 0 <;> simp [hlimit]

theorem searchRows_of_some {rows : List NodeRow}
    (h : t.indexedRows? engine text limit = some rows) :
    t.searchRows engine text limit = .ok (rows, .index) := by
  rw [searchRows, h]

theorem searchRows_of_none (h : t.indexedRows? engine text limit = none) :
    t.searchRows engine text limit = (t.scannedRows text limit).map fun rows => (rows, .scan) := by
  rw [searchRows, h]

/-- If the text index has the texts of some nodes then a query finds the rows among theirs whose
    texts match, in some order and up to the limit. -/
theorem searchRows_of_indexed {matcher : FullText.Matcher} {indexed : List NodeRow}
    (hnodes : t.nodes = some nodes) (hindex : t.index = some index)
    (hindexed : indexed ⊆ nodes.rows)
    (htexts : (index.map fun row => (row.nodeId, row.texts)).Perm
      (indexed.map fun row => (row.id, row.texts)))
    (hmatcher : engine.matcher? text = some matcher) (limit : ℕ) :
    ∃ found : List NodeRow, found.Perm (indexed.filter (matcher.finds ·.texts)) ∧
      t.searchRows engine text limit = .ok (found.take limit, .index) := by
  let ranked := matcher.rank (index.map fun row => (row.nodeId, row.texts))
  refine ⟨ranked.filterMap (nodes.find? ·), ?_, searchRows_of_some ?_⟩
  · -- What is ranked are the identifiers of the rows that match.
    have hranked : ranked.Perm ((indexed.filter (matcher.finds ·.texts)).map NodeRow.id) := by
      refine (matcher.perm_rank _).trans (((htexts.filter _).map _).trans (.of_eq ?_))
      rw [List.filter_map, List.map_map]
      rfl
    refine (hranked.filterMap _).trans (.of_eq ?_)
    exact NodeTable.filterMap_find?_ids_of_subset nodes.distinct
      (List.Subset.trans (List.filter_subset_self _) hindexed)
  · rw [indexedRows?_eq hnodes hindex, hmatcher]
    by_cases hlimit : limit = 0
    · rw [if_pos hlimit, hlimit, List.take_zero]
    · rw [if_neg hlimit]
      rfl

/-- If the text index has the texts of all nodes then a query finds the rows whose texts match. -/
theorem searchRows_of_matcher {matcher : FullText.Matcher} (hnodes : t.nodes = some nodes)
    (hindex : t.index = some index)
    (htexts : (index.map fun row => (row.nodeId, row.texts)).Perm
      (nodes.rows.map fun row => (row.id, row.texts)))
    (hmatcher : engine.matcher? text = some matcher) (limit : ℕ) :
    ∃ found : List NodeRow, found.Perm (nodes.rows.filter (matcher.finds ·.texts)) ∧
      t.searchRows engine text limit = .ok (found.take limit, .index) :=
  searchRows_of_indexed hnodes hindex (List.Subset.refl _) htexts hmatcher limit

/-- The rows are looked through, unless there are some and the pattern is too long. -/
theorem scannedRows_eq (hnodes : t.nodes = some nodes) :
    t.scannedRows text limit =
      if limit ≠ 0 ∧ nodes.rows ≠ [] ∧
          FullText.Sought.maxPatternSize < (FullText.Sought.ofText text).patternSize then
        .error (.engine .patternTooComplex)
      else .ok ((nodes.rows.filter (·.holds (.ofText text))).take limit) := by
  rw [scannedRows, needNodes_eq_ok.2 hnodes, ok_bind]
  simp only [FullText.Sought.isTooLong, decide_eq_true_eq]
  split <;> rfl

/-- A text that is no query and not too long finds the rows that hold it, in their order and up
    to the limit. -/
theorem searchRows_of_refused (hnodes : t.nodes = some nodes) (hindex : t.index = some index)
    (hrefused : engine.matcher? text = none) (hlimit : limit ≠ 0)
    (hsize : (FullText.Sought.ofText text).patternSize ≤ FullText.Sought.maxPatternSize) :
    t.searchRows engine text limit =
      .ok ((nodes.rows.filter (·.holds (.ofText text))).take limit, .scan) := by
  have hindexed := (indexedRows?_eq_none hnodes hindex).2 ⟨hlimit, hrefused⟩
  rw [searchRows_of_none hindexed, scannedRows_eq hnodes, if_neg fun h => Nat.not_lt.2 hsize h.2.2]
  rfl

/-- Searching rows fails if and only if there are some and the text is one that cannot be searched
    for. -/
theorem searchRows_eq_error (hnodes : t.nodes = some nodes) (hindex : t.index = some index)
    {e : StorageFault} :
    t.searchRows engine text limit = .error e ↔
      e = .engine .patternTooComplex ∧ limit ≠ 0 ∧ nodes.rows ≠ [] ∧
        engine.Unsearchable text := by
  rw [FullText.Engine.Unsearchable, ← FullText.Sought.patternSize_ofText]
  cases hindexed : t.indexedRows? engine text limit with
  | some rows =>
    rw [searchRows_of_some hindexed]
    refine iff_of_false (by simp) ?_
    rintro ⟨-, hlimit, -, hrefused, -⟩
    rw [(indexedRows?_eq_none hnodes hindex).2 ⟨hlimit, hrefused⟩] at hindexed
    cases hindexed
  | none =>
    obtain ⟨hlimit, hrefused⟩ := (indexedRows?_eq_none hnodes hindex).1 hindexed
    rw [searchRows_of_none hindexed, scannedRows_eq hnodes]
    split
    · rename_i hfails
      simp [Except.map, hrefused, hfails, eq_comm]
    · rename_i hfails
      refine iff_of_false (by simp [Except.map]) ?_
      rintro ⟨-, hlimit, hrows, -, hlong⟩
      exact hfails ⟨hlimit, hrows, hlong⟩

theorem subset_of_indexedRows? (hnodes : t.nodes = some nodes) (hindex : t.index = some index)
    {rows : List NodeRow} (h : t.indexedRows? engine text limit = some rows) :
    rows ⊆ nodes.rows := by
  rw [indexedRows?_eq hnodes hindex] at h
  split at h
  · cases h
    exact List.nil_subset _
  · obtain ⟨matcher, -, rfl⟩ := Option.map_eq_some_iff.1 h
    intro row hrow
    obtain ⟨id, -, hfind⟩ := List.mem_filterMap.1 (List.mem_of_mem_take hrow)
    exact List.mem_of_find?_eq_some hfind

/-- The rows that are found are rows of a table of nodes. -/
theorem exists_nodes_of_searchRows {rows : List NodeRow} {route : SearchRoute}
    (h : t.searchRows engine text limit = .ok (rows, route)) :
    ∃ nodes, t.nodes = some nodes ∧ rows ⊆ nodes.rows := by
  cases hindexed : t.indexedRows? engine text limit with
  | some found =>
    rw [searchRows_of_some hindexed] at h
    obtain ⟨rfl, -⟩ := Prod.mk.inj (Except.ok.inj h)
    -- Without a table of nodes or an index nothing is found in this way.
    have hasked := hindexed
    rw [indexedRows?] at hasked
    split at hasked
    · exact ⟨_, ‹_›, subset_of_indexedRows? ‹_› ‹_› hindexed⟩
    · cases hasked
  | none =>
    rw [searchRows_of_none hindexed] at h
    obtain ⟨found, hscanned, hfound⟩ := map_eq_ok.1 h
    obtain ⟨rfl, -⟩ := Prod.mk.inj hfound
    obtain ⟨nodes, hnodes, -⟩ := bind_eq_ok.1 hscanned
    have hnodes := needNodes_eq_ok.1 hnodes
    rw [scannedRows_eq hnodes] at hscanned
    split at hscanned
    · cases hscanned
    · obtain rfl := Except.ok.inj hscanned
      exact ⟨nodes, hnodes, fun row hrow => List.mem_of_mem_filter (List.mem_of_mem_take hrow)⟩

/-- The rows that are found are rows of the table. -/
theorem subset_of_searchRows (hnodes : t.nodes = some nodes) {rows : List NodeRow}
    {route : SearchRoute} (h : t.searchRows engine text limit = .ok (rows, route)) :
    rows ⊆ nodes.rows := by
  obtain ⟨nodes', hnodes', hrows⟩ := exists_nodes_of_searchRows h
  obtain rfl := Option.some.inj (hnodes.symm.trans hnodes')
  exact hrows

/-- No more rows are found than are asked for. -/
theorem length_le_of_searchRows {rows : List NodeRow} {route : SearchRoute}
    (h : t.searchRows engine text limit = .ok (rows, route)) : rows.length ≤ limit := by
  cases hindexed : t.indexedRows? engine text limit with
  | some found =>
    rw [searchRows_of_some hindexed] at h
    obtain ⟨rfl, -⟩ := Prod.mk.inj (Except.ok.inj h)
    rw [indexedRows?] at hindexed
    split at hindexed
    · split at hindexed
      · obtain rfl := Option.some.inj hindexed
        exact Nat.zero_le limit
      · obtain ⟨matcher, -, rfl⟩ := Option.map_eq_some_iff.1 hindexed
        exact List.length_take_le _ _
    · cases hindexed
  | none =>
    rw [searchRows_of_none hindexed] at h
    cases hscanned : t.scannedRows text limit with
    | error fault =>
      rw [hscanned] at h
      cases h
    | ok found =>
      rw [hscanned] at h
      obtain ⟨rfl, -⟩ := Prod.mk.inj (Except.ok.inj h)
      obtain ⟨nodes, hnodes, -⟩ := bind_eq_ok.1 hscanned
      rw [scannedRows_eq (needNodes_eq_ok.1 hnodes)] at hscanned
      split at hscanned
      · cases hscanned
      · obtain rfl := Except.ok.inj hscanned
        exact List.length_take_le _ _

/-! ## Nodes -/

theorem search_eq_ok {limit : UInt64} {found : List Node} {route : SearchRoute} :
    t.search engine text limit = .ok (found, route) ↔
      ∃ rows, t.searchRows engine text limit.toNat = .ok (rows, route) ∧
        List.Forall₂ (fun row node => row.decode = .ok node) rows found := by
  simp only [search, fault, bind_eq_ok, mapError_eq_ok]
  constructor
  · rintro ⟨⟨rows, route'⟩, hrows, found', hfound, h⟩
    obtain ⟨rfl, rfl⟩ := Prod.mk.inj (Except.ok.inj h)
    exact ⟨rows, hrows, mapM_eq_ok.1 hfound⟩
  · rintro ⟨rows, hrows, hfound⟩
    exact ⟨(rows, route), hrows, found, mapM_eq_ok.2 hfound, rfl⟩

/-- No more nodes are found than are asked for. -/
theorem length_le_of_search {limit : UInt64} {found : List Node} {route : SearchRoute}
    (h : t.search engine text limit = .ok (found, route)) : found.length ≤ limit.toNat := by
  obtain ⟨rows, hrows, hfound⟩ := search_eq_ok.1 h
  exact hfound.length_eq ▸ length_le_of_searchRows hrows

/-- Rows among some that can be read can be read together. -/
theorem exists_forall₂_decode {all rows : List NodeRow} (hrows : rows ⊆ all)
    (hread : ∀ row ∈ all, ∃ node, row.decode = .ok node) :
    ∃ found, List.Forall₂ (fun row node => row.decode = .ok node) rows found := by
  obtain ⟨found, hfound⟩ := exists_mapM_ok_iff.2 fun row hrow => hread row (hrows hrow)
  exact ⟨found, mapM_eq_ok.1 hfound⟩

/-- Among rows that can be read, a search fails if and only if searching them does. -/
theorem search_eq_error (hnodes : t.nodes = some nodes) (hindex : t.index = some index)
    (hread : ∀ row ∈ nodes.rows, ∃ node, row.decode = .ok node) {limit : UInt64}
    {e : GraphError} :
    t.search engine text limit = .error e ↔
      e = .storage (.engine .patternTooComplex) ∧ limit ≠ 0 ∧ nodes.rows ≠ [] ∧
        engine.Unsearchable text := by
  have hzero : limit.toNat ≠ 0 ↔ limit ≠ 0 := by
    rw [ne_eq, ne_eq, ← UInt64.toNat_inj]
    rfl
  have hfault (f : StorageFault) : t.searchRows engine text limit.toNat = .error f ↔ _ :=
    searchRows_eq_error hnodes hindex
  cases hrows : t.searchRows engine text limit.toNat with
  | error f =>
    obtain ⟨rfl, hlimit, hcauses⟩ := (hfault f).1 hrows
    have hsearch : t.search engine text limit = .error (.storage (.engine .patternTooComplex)) := by
      rw [search, hrows]
      rfl
    rw [hsearch, Except.error.injEq, eq_comm]
    exact ⟨fun he => ⟨he, hzero.1 hlimit, hcauses⟩, And.left⟩
  | ok found =>
    obtain ⟨rows, route⟩ := found
    obtain ⟨decoded, hdecoded⟩ :=
      exists_forall₂_decode (subset_of_searchRows hnodes hrows) hread
    rw [search_eq_ok.2 ⟨rows, hrows, hdecoded⟩]
    refine iff_of_false (by simp) ?_
    rintro ⟨-, hlimit, hcauses⟩
    have hfails := (hfault _).2 ⟨rfl, hzero.2 hlimit, hcauses⟩
    rw [hrows] at hfails
    cases hfails

end Tables

end Ripple
