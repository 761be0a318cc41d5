import Ripple.Proofs.Session.Readable

/-!
# The edges that a run adds

A call that adds an edge returns an identifier for it. `Session.additions` are the edges that a run
of calls adds, with these identifiers. They are numbered from one in order of time
(`Session.additions_eq`), and after the run the table of edges holds them and nothing else. So
what is read of the edges of a node are those among them that have the node as an endpoint, each
once and in order of time, whatever other calls there were and whichever of them failed
(`logged_run`).
-/

namespace Ripple

/-- An edge that was added and the identifier that was returned for it. -/
structure Added where
  /-- The identifier. -/
  id : ℤ
  /-- The edge. -/
  edge : NewEdge

namespace Added

/-- The row of an edge that was added. -/
def row (a : Added) : EdgeRow := .ofEdge a.edge a.id

/-- Whether a node is an endpoint of an edge that was added. -/
def Joins (a : Added) (node : String) : Prop := a.edge.source = node ∨ a.edge.target = node

instance (a : Added) (node : String) : Decidable (a.Joins node) :=
  inferInstanceAs (Decidable (_ ∨ _))

theorem touches_row (a : Added) (node : String) : a.row.touches node = decide (a.Joins node) := by
  rw [Bool.eq_iff_iff, decide_eq_true_eq]
  simp [row, EdgeRow.ofEdge, EdgeRow.touches, Joins]

/-- What an edge is read as after it has been added. -/
structure ShownAs (a : Added) (edge : Edge) : Prop where
  id : edge.id = a.id
  source : edge.source = a.edge.source
  target : edge.target = a.edge.target
  relationship : edge.relationship = a.edge.relationship
  /-- There are metadata if there were some. -/
  metadata_none : edge.metadata = none ↔ a.edge.metadata = none
  /-- Metadata without doubles are those that were given. -/
  metadata (value : Json) : a.edge.metadata = some value → value.Ordered →
    edge.metadata = some value

theorem shownAs_of_decode {a : Added} {edge : Edge} (h : a.row.decode = .ok edge) :
    a.ShownAs edge := by
  obtain ⟨metadata, hmetadata, rfl⟩ := EdgeRow.decode_eq_ok.1 h
  obtain ⟨hnone, hsome⟩ := metadata_of_decodeMetadata hmetadata
  exact ⟨rfl, rfl, rfl, rfl, hnone, hsome⟩

end Added

/-- The edge that a call adds, if it adds one. -/
def Call.addition? (s : Session) : Call → Option Added
  | addEdge edge => ((Session.addEdge edge).result s).toOption.map fun id => ⟨id, edge⟩
  | _ => none

/-- The edges that a run of calls adds, in order of time. -/
def Session.additions (s : Session) : List Call → List Added
  | [] => []
  | call :: calls => (call.addition? s).toList ++ (call.after s).additions calls

variable {s : Session} {t : Tables} {past : List NewEdge}

/-- What further calls add comes after what has been added. -/
theorem Session.additions_append (s : Session) (calls more : List Call) :
    s.additions (calls ++ more) = s.additions calls ++ (s.run calls).additions more := by
  induction calls generalizing s with
  | nil => rfl
  | cons call calls ih =>
    rw [List.cons_append, additions, additions, ih, List.append_assoc]
    rfl

/-- The identifier that is returned for an edge is one more than the number of edges before it. -/
theorem Session.addEdge_eq_ok (h : s.workspace.tables? = some t) (hlogs : t.Logs past)
    {edge : NewEdge} {id : ℤ} (hid : (addEdge edge).result s = .ok id) : id = past.length + 1 := by
  obtain ⟨table, htable, hlogs⟩ := hlogs
  have hadd : t.addEdge edge = .ok (table.lastId + 1, _) :=
    bind_eq_ok.2 ⟨table, Tables.needEdges_eq_ok.2 htable, rfl⟩
  cases hpass : (s.gate.pass .addEdge).2 with
  | false =>
    rw [addEdge, (request_of_refusal hpass).1] at hid
    cases hid
  | true =>
    rw [addEdge, (request_of_pass hpass).1, Workspace.change_of_ok h hadd] at hid
    rw [← Except.ok.inj hid, hlogs.lastId]

/-- A call adds the edge that it writes. -/
theorem Call.addition?_eq (h : s.workspace.tables? = some t) (hlogs : t.Logs past) (call : Call) :
    call.addition? s =
      ((call.write? s).bind Write.edge?).map fun edge => ⟨past.length + 1, edge⟩ := by
  cases call with
  | addEdge edge =>
    rw [addition?, write?]
    cases hresult : (Session.addEdge edge).result s with
    | error e => rfl
    | ok id =>
      obtain rfl := Session.addEdge_eq_ok h hlogs hresult
      rfl
  | upsert disturbed node now =>
    rw [write?]
    cases (Session.upsertNodeUnless disturbed node now).result s <;> rfl
  | record disturbed path content now =>
    rw [write?]
    cases (Session.upsertNodeUnless disturbed (.file path content now) now).result s <;> rfl
  | _ => rfl

/-- The edges that a run adds are those that it writes, numbered in order of time. -/
theorem Session.additions_eq (h : s.workspace.tables? = some t) (ht : t.IsCurrent)
    (hlogs : t.Logs past) (calls : List Call) :
    s.additions calls =
      (s.added calls).mapIdx fun i edge => ⟨past.length + i + 1, edge⟩ := by
  induction calls generalizing s t past with
  | nil => rfl
  | cons call calls ih =>
    have hrest := ih (call.tables?_after h ht) (ht.foldl_apply _) (hlogs.foldl_apply ht _)
    have hedge : (call.write? s).toList.filterMap Write.edge? =
        ((call.write? s).bind Write.edge?).toList := by
      cases call.write? s with
      | none => rfl
      | some write =>
        rw [Option.toList_some, List.filterMap_cons, List.filterMap_nil, Option.bind_some]
        cases write.edge? <;> rfl
    have hadded : s.added (call :: calls) =
        ((call.write? s).bind Write.edge?).toList ++ (call.after s).added calls := by
      rw [← hedge]
      exact List.filterMap_append
    rw [additions, call.addition?_eq h hlogs, hrest, hedge, hadded]
    cases (call.write? s).bind Write.edge? with
    | none => simp
    | some edge =>
      -- The numbers go on from this edge.
      have hnext (i : ℕ) :
          ((past ++ [edge]).length : ℤ) + i + 1 = past.length + (i + 1 : ℕ) + 1 := by
        rw [List.length_append, List.length_singleton]
        omega
      simp only [Option.map_some, Option.toList_some, List.singleton_append, List.mapIdx_cons,
        hnext]
      rw [Int.natCast_zero, add_zero]

/-- The identifiers of the edges that a run adds increase. -/
theorem Session.pairwise_additions (h : s.workspace.tables? = some t) (ht : t.IsCurrent)
    (hlogs : t.Logs past) (calls : List Call) :
    (s.additions calls).Pairwise (·.id < ·.id) := by
  rw [Session.additions_eq h ht hlogs, List.pairwise_iff_getElem]
  intro i j hi hj hij
  simp only [List.getElem_mapIdx]
  omega

/-- After a run the table of edges holds what the run has added. -/
theorem Session.rows_additions (h : s.workspace.tables? = some Tables.empty.migrate.1)
    (calls : List Call) :
    ∃ t table, (s.run calls).workspace.tables? = some t ∧ t.edges = some table ∧
      table.rows = (s.additions calls).map Added.row := by
  have hlogs := Tables.logs_fresh.foldl_apply .fresh (s.writes calls)
  obtain ⟨table, htable, hlogs⟩ := hlogs
  refine ⟨_, table, Session.tables?_run h .fresh calls, htable, ?_⟩
  rw [hlogs.rows, Session.additions_eq h .fresh Tables.logs_fresh]
  refine List.ext_getElem? fun i => ?_
  simp [Session.added, Added.row, Function.comp_def]

/-- After any run from a database that has just been made, the edges are those that calls have
    added, in order of time, and their identifiers, those that the calls have returned, increase.
    Further calls leave them as they are, and can only add some at the end. The edges of a node are
    those of which it is an endpoint, each once. They are read if the gate lets the request pass
    and if their metadata do not nest too deeply. -/
theorem logged_run (h : s.workspace.tables? = some Tables.empty.migrate.1) (calls : List Call) :
    (s.additions calls).Pairwise (·.id < ·.id) ∧
    (∃ t table, (s.run calls).workspace.tables? = some t ∧ t.edges = some table ∧
      table.rows = (s.additions calls).map Added.row) ∧
    (∀ more, s.additions calls <+: s.additions (calls ++ more)) ∧
    ∀ node,
      (∀ edges, (Session.edgesOf node).result (s.run calls) = .ok edges →
        List.Forall₂ Added.ShownAs ((s.additions calls).filter (·.Joins node)) edges) ∧
      (((s.run calls).gate.pass .getEdges).2 = true →
        (∀ a ∈ s.additions calls, a.Joins node → ∀ value ∈ a.edge.metadata,
          value.Sound ∧ value.depth ≤ Json.depthLimit) →
        ∃ edges, (Session.edgesOf node).result (s.run calls) = .ok edges) := by
  obtain ⟨t, table, ht, htable, hrows⟩ := Session.rows_additions h calls
  refine ⟨Session.pairwise_additions h .fresh Tables.logs_fresh calls, ⟨t, table, ht, htable, hrows⟩,
    fun more => ?_, fun node => ⟨fun edges hedges => ?_, fun hpass hread => ?_⟩⟩
  · rw [Session.additions_append]
    exact List.prefix_append _ _
  · obtain ⟨table', htable', hdecode⟩ := Tables.edgesOf_eq_ok.1 (Session.query_eq_ok ht hedges)
    obtain rfl : table = table' := Option.some.inj (htable.symm.trans htable')
    have hfilter : table.rows.filter (·.touches node) =
        ((s.additions calls).filter (·.Joins node)).map Added.row := by
      rw [hrows, List.filter_map]
      exact congrArg (List.map Added.row) (List.filter_congr fun a _ => a.touches_row node)
    rw [hfilter, List.forall₂_map_left_iff] at hdecode
    exact hdecode.imp fun a edge => Added.shownAs_of_decode
  · rw [Session.edgesOf, Session.query_of_pass ht hpass, Tables.exists_edgesOf_iff htable, hrows,
      List.forall_mem_map]
    intro a ha htouches
    rw [Added.touches_row, decide_eq_true_eq] at htouches
    have hmetadata := hread a ha htouches
    exact (EdgeRow.exists_decode_iff fun value hvalue => (hmetadata value hvalue).1).2
      fun value hvalue => (hmetadata value hvalue).2

/-- A loop is added, refused, and added again, and then an edge between other nodes. -/
def Session.loops : List Call :=
  let loop : NewEdge := ⟨"a", "a", "uses", some (.int 1)⟩
  [.addEdge loop, .upsert (fun _ => none) (.file "a" "" .epoch) .epoch, .allow .addEdge (some 0),
    .addEdge loop, .allow .addEdge none, .addEdge loop, .addEdge ⟨"b", "c", "uses", none⟩]

theorem logged_run_loops :
    (Session.ofTables .fresh).workspace.tables? = some Tables.empty.migrate.1 ∧
      ∃ edges, (Session.edgesOf "a").result ((Session.ofTables .fresh).run Session.loops) =
        .ok edges ∧ edges.map Edge.id = [1, 2] ∧
          edges.map Edge.metadata = [some (.int 1), some (.int 1)] := by
  obtain ⟨-, -, -, hnode⟩ := logged_run (s := .ofTables .fresh) rfl Session.loops
  obtain ⟨hshown, hread⟩ := hnode "a"
  let loop : NewEdge := ⟨"a", "a", "uses", some (.int 1)⟩
  have hadditions : (Session.ofTables .fresh).additions Session.loops =
      [⟨1, loop⟩, ⟨2, loop⟩, ⟨3, ⟨"b", "c", "uses", none⟩⟩] := rfl
  have hordered : (Json.int 1).Ordered := ⟨by decide, by decide⟩
  have hmetadata : ∀ a ∈ (Session.ofTables .fresh).additions Session.loops,
      ∀ value ∈ a.edge.metadata, value.Sound ∧ value.depth ≤ Json.depthLimit := by
    rw [hadditions]
    have hloop : ∀ value ∈ loop.metadata, value.Sound ∧ value.depth ≤ Json.depthLimit := by
      rintro _ ⟨⟩
      exact ⟨hordered.sound, by decide⟩
    simp only [List.forall_mem_cons]
    exact ⟨hloop, hloop, by simp, by simp⟩
  obtain ⟨edges, hedges⟩ := hread rfl fun a ha _ => hmetadata a ha
  refine ⟨rfl, edges, hedges, ?_⟩
  have hjoin : ((Session.ofTables .fresh).additions Session.loops).filter (·.Joins "a") =
      [⟨1, loop⟩, ⟨2, loop⟩] := rfl
  have h := hshown edges hedges
  rw [hjoin] at h
  cases h with
  | cons hfirst h =>
    cases h with
    | cons hsecond h =>
      cases h with
      | nil =>
        simp [hfirst.id, hsecond.id, hfirst.metadata _ rfl hordered,
          hsecond.metadata _ rfl hordered]

end Ripple
