import Ripple.Proofs.Session.Calls
import Ripple.Proofs.Store.Redating

/-!
# Sessions that agree

Two sessions agree if they serve tables that are the same but for the timestamps of nodes, and have
the same depth and limit (`Session.Agrees`). Two actions agree if in such sessions they give the
same, as far as it is viewed, and leave sessions that agree again (`Action.Agrees`). What is made of
actions that agree does, too (`Action.Agrees.bind`).

So a call, made at two times in sessions that agree, has the same answer but for timestamps
(`Call.Redates.agrees`).
-/

namespace Ripple

/-! ## Answers -/

/-- Why a call fails. -/
inductive Failure where
  /-- An operation on the graph fails. -/
  | graph (error : GraphError)
  /-- The schema cannot be looked at or brought up to date. -/
  | setup (error : SetupError)
deriving DecidableEq, Repr

/-- What a call gives. -/
inductive Answer where
  /-- Something has been done. -/
  | done
  /-- The identifier of an edge. -/
  | number (id : ℤ)
  /-- A node, if there is one. -/
  | node (node : Option Node)
  /-- Some nodes. -/
  | nodes (nodes : List Node)
  /-- Some nodes, and how they were found. -/
  | found (nodes : List Node) (route : SearchRoute)
  /-- Some edges. -/
  | edges (edges : List Edge)
  /-- The sizes of the graph. -/
  | sizes (sizes : Stats)
  /-- The files within reach. -/
  | report (report : Report)
  /-- The version of the schema. -/
  | status (status : SchemaStatus)
  /-- Whether the schema is not up to date. -/
  | outdated (outdated : Bool)

namespace Answer

/-- An answer but for the timestamps of nodes. -/
def undated : Answer → Answer
  | .node some? => .node (some?.map Node.undated)
  | .nodes all => .nodes (all.map Node.undated)
  | .found all route => .found (all.map Node.undated) route
  | answer => answer

/-- The answer that an operation on the graph gives. -/
def ofGraph {α : Type} (f : α → Answer) (result : Except GraphError α) : Except Failure Answer :=
  (result.map f).mapError .graph

/-- The answer that an operation on the schema gives. -/
def ofSetup {α : Type} (f : α → Answer) (result : Except SetupError α) : Except Failure Answer :=
  (result.map f).mapError .setup

end Answer

/-- What a call gives. -/
def Call.answer (s : Session) : Call → Except Failure Answer
  | upsert disturbed node now =>
    Answer.ofGraph (fun _ => .done) ((Session.upsertNodeUnless disturbed node now).result s)
  | record disturbed path content now =>
    Answer.ofGraph .report ((Session.recordFileUnless disturbed path content now).result s)
  | addEdge edge => Answer.ofGraph .number ((Session.addEdge edge).result s)
  | getNode id => Answer.ofGraph .node ((Session.getNode id).result s)
  | nodesAt path => Answer.ofGraph .nodes ((Session.nodesAt path).result s)
  | edgesOf id => Answer.ofGraph .edges ((Session.edgesOf id).result s)
  | stats => Answer.ofGraph .sizes (Session.stats.result s)
  | analyze path depth => Answer.ofGraph .report ((Session.analyze path depth).result s)
  | analyzeImpact path depth now =>
    Answer.ofGraph .report ((Session.analyzeImpact path depth now).result s)
  | find text limit => Answer.ofGraph .nodes ((Session.find text limit).result s)
  | searchAtMost text limit => Answer.ofGraph .nodes ((Session.searchAtMost text limit).result s)
  | search text limit now => Answer.ofGraph .nodes ((Session.search text limit now).result s)
  | searchDirectly text limit =>
    Answer.ofGraph (fun found => .found found.1 found.2)
      ((Session.searchDirectly text limit).result s)
  | clearEvents | allow _ _ => .ok .done
  | migrate => Answer.ofSetup (fun _ => .done) s.workspace.migrate.2
  | schemaStatus => Answer.ofSetup .status s.workspace.schemaStatus.2
  | needsMigration => Answer.ofSetup .outdated s.workspace.needsMigration.2

/-! ## Agreement -/

/-- Two sessions serve the same but for the timestamps of nodes, have the same depth and limit, and
    read search texts alike. -/
structure Session.Agrees (s s' : Session) : Prop where
  tables : ∃ t t', s.Serves t ∧ s'.Serves t' ∧ t.Redates t'
  depth : s.defaultDepth = s'.defaultDepth
  limit : s.defaultLimit = s'.defaultLimit
  engine : s.engine = s'.engine

/-- Two actions give the same, as far as it is viewed, in sessions that agree, and leave sessions
    that agree. -/
def Action.Agrees {α β : Type} (view : α → β) (a a' : Action α) : Prop :=
  ∀ s s' : Session, s.Agrees s' →
    (a.result s).map view = (a'.result s').map view ∧ (a.after s).Agrees (a'.after s')

namespace Action.Agrees

variable {α β γ δ : Type} {view : α → β} {view' : γ → δ} {a a' : Action α}

theorem pure {value value' : α} (h : view value = view value') :
    Agrees view (Pure.pure value) (Pure.pure value') :=
  fun _ _ hs => ⟨congrArg Except.ok h, hs⟩

/-- What follows two actions that agree has to agree where they give the same. -/
theorem bind (ha : a.Agrees view a') {f f' : α → Action γ}
    (hf : ∀ value value', view value = view value' → (f value).Agrees view' (f' value')) :
    (a >>= f).Agrees view' (a' >>= f') := by
  intro s s' hs
  obtain ⟨hresult, hafter⟩ := ha s s' hs
  cases h : a.result s with
  | error e =>
    cases h' : a'.result s' with
    | error e' =>
      rw [h, h'] at hresult
      obtain rfl := Except.error.inj hresult
      rw [(bind_of_error h f).1, (bind_of_error h f).2, (bind_of_error h' f').1,
        (bind_of_error h' f').2]
      exact ⟨rfl, hafter⟩
    | ok value' =>
      rw [h, h'] at hresult
      cases hresult
  | ok value =>
    cases h' : a'.result s' with
    | error e' =>
      rw [h, h'] at hresult
      cases hresult
    | ok value' =>
      rw [h, h'] at hresult
      rw [(bind_of_ok h f).1, (bind_of_ok h f).2, (bind_of_ok h' f').1, (bind_of_ok h' f').2]
      exact hf value value' (Except.ok.inj hresult) _ _ hafter

/-- What depends on the session has to agree for sessions that agree. -/
theorem get_bind {f f' : Session → Action γ}
    (hf : ∀ s s' : Session, s.Agrees s' → (f s).Agrees view' (f' s')) :
    ((get : Action Session) >>= f).Agrees view' ((get : Action Session) >>= f') := by
  intro s s' hs
  rw [(Action.get_bind f s).1, (Action.get_bind f s).2, (Action.get_bind f' s').1,
    (Action.get_bind f' s').2]
  exact hf s s' hs s s' hs

/-- Actions that agree lead to answers that are the same but for timestamps. -/
theorem answer (ha : a.Agrees view a') {s s' : Session} (hs : s.Agrees s') {f : α → Answer}
    (hf : ∀ value value', view value = view value' → (f value).undated = (f value').undated) :
    (Answer.ofGraph f (a.result s)).map Answer.undated =
        (Answer.ofGraph f (a'.result s')).map Answer.undated ∧
      (a.after s).Agrees (a'.after s') := by
  obtain ⟨hresult, hafter⟩ := ha s s' hs
  refine ⟨?_, hafter⟩
  cases h : a.result s <;> cases h' : a'.result s' <;> rw [h, h'] at hresult
  · rw [Except.error.inj hresult]
  · cases hresult
  · cases hresult
  · exact congrArg Except.ok (hf _ _ (Except.ok.inj hresult))

end Action.Agrees

namespace Session

variable {α β : Type} {view : α → β}

/-- Requests agree if they do to workspaces whose tables are redated. -/
theorem request_agrees {f f' : Workspace → Workspace × Except GraphError α} (method : Method)
    (h : ∀ {w w' : Workspace} {t t' : Tables}, w.tables? = some t → w'.tables? = some t' →
      t.Redates t' → (f w).2.map view = (f' w').2.map view ∧
        ∃ u u', (f w).1.tables? = some u ∧ (f' w').1.tables? = some u' ∧ u.Redates u') :
    (request method f).Agrees view (request method f') := by
  rintro s s' ⟨⟨t, t', ht, ht', hredates⟩, hdepth, hlimit, hengine⟩
  obtain ⟨hpass, hgate⟩ := ht.pass method
  obtain ⟨hpass', hgate'⟩ := ht'.pass method
  obtain ⟨hresult, u, u', hu, hu', hredates⟩ := h ht.tables ht'.tables hredates
  rw [(request_of_pass hpass).1, (request_of_pass hpass).2, (request_of_pass hpass').1,
    (request_of_pass hpass').2]
  exact ⟨hresult, ⟨u, u', ⟨hu, hgate⟩, ⟨hu', hgate'⟩, hredates⟩, hdepth, hlimit, hengine⟩

theorem query_agrees (method : Method) {f : Tables → Except GraphError α}
    (h : ∀ {t t' : Tables}, t.Redates t' → (f t).map view = (f t').map view) :
    (query method f).Agrees view (query method f) := by
  refine request_agrees method fun {w w' t t'} ht ht' hredates =>
    ⟨?_, t, t', ht, ht', hredates⟩
  have hread {w : Workspace} {t : Tables} (ht : w.tables? = some t) : w.read f = f t := by
    simp only [Workspace.read, Workspace.tables, ht]
    rfl
  rw [hread ht, hread ht', h hredates]

/-- The audit trail does not count. -/
theorem Agrees.withEvents {s s' : Session} (hs : s.Agrees s') (events events' : List Event) :
    ({ s with events } : Session).Agrees { s' with events := events' } := by
  obtain ⟨⟨t, t', ht, ht', hredates⟩, hdepth, hlimit, hengine⟩ := hs
  exact ⟨⟨t, t', ⟨ht.tables, ht.passes⟩, ⟨ht'.tables, ht'.passes⟩, hredates⟩, hdepth, hlimit,
    hengine⟩

theorem note_agrees (event event' : Event) : (note event).Agrees id (note event') :=
  fun _ _ hs => ⟨rfl, hs.withEvents _ _⟩

/-! ## Storing -/

theorem upsertNodeUnless_agrees (disturbed : Tables.UpsertStep → Option StorageFault)
    {node node' : Node} {now now' : Instant}
    (hrow : (NodeRow.ofNode node now).gist = (NodeRow.ofNode node' now').gist) :
    (upsertNodeUnless disturbed node now).Agrees id (upsertNodeUnless disturbed node' now') := by
  refine request_agrees .upsertNode fun {w w' t t'} ht ht' hredates => ?_
  obtain ⟨hfault, hafter⟩ := hredates.upsertUnless disturbed hrow
  rw [Workspace.write_of_tables? ht, Workspace.write_of_tables? ht']
  exact ⟨by rw [hfault], _, _, Workspace.tables?_withTables ht hredates.left.ne_empty _,
    Workspace.tables?_withTables ht' hredates.right.ne_empty _, hafter⟩

theorem addEdge_agrees (edge : NewEdge) : (addEdge edge).Agrees id (addEdge edge) := by
  refine request_agrees .addEdge fun {w w' t t'} ht ht' hredates => ?_
  obtain ⟨number, u, u', hadd, hadd', hafter⟩ := hredates.addEdge edge
  rw [Workspace.change_of_ok ht hadd, Workspace.change_of_ok ht' hadd']
  exact ⟨rfl, u, u', Workspace.tables?_withTables ht hredates.left.ne_empty _,
    Workspace.tables?_withTables ht' hredates.right.ne_empty _, hafter⟩

/-! ## Analyses -/

theorem visit_agrees (depth : UInt32) (node : String) (level : UInt32) (w : Impact.Walk) :
    (w.visit source depth node level).Agrees id (w.visit source depth node level) := by
  rw [Impact.Walk.visit]
  split
  · exact .pure rfl
  · refine .bind (query_agrees .getNode fun h => h.node? node) fun found found' hfound => ?_
    cases found with
    | none =>
      obtain rfl := Option.map_eq_none_iff.1 hfound.symm
      exact .pure rfl
    | some n =>
      obtain ⟨n', rfl, hn⟩ := Option.map_eq_some_iff.1 hfound.symm
      have hfile : n'.filePath = n.filePath := congrArg (·.filePath) hn
      dsimp only
      rw [hfile]
      split
      · exact .pure rfl
      · have hread : (edgesOf node).Agrees id (edgesOf node) :=
          query_agrees .getEdges fun h => by rw [h.edgesOf]
        refine .bind hread fun edges edges' hedges => .pure ?_
        rw [show edges = edges' from hedges]

theorem run_agrees (depth : UInt32) (fuel : ℕ) (w : Impact.Walk) :
    (w.run source depth fuel).Agrees id (w.run source depth fuel) := by
  induction fuel generalizing w with
  | zero => exact .pure rfl
  | succ fuel ih =>
    rw [Impact.Walk.run]
    split
    · exact .pure rfl
    · refine .bind (visit_agrees _ _ _ _) fun w w' hw => ?_
      rw [show w = w' from hw]
      exact ih w'

/-- The walk starts at nodes of the same identifiers, and takes as many steps. -/
theorem analyze_agrees (path : String) (depth : UInt32) :
    (analyze path depth).Agrees id (analyze path depth) := by
  refine .get_bind fun s s' hs => ?_
  have hcount : s.edgeCount = s'.edgeCount := by
    obtain ⟨t, t', ht, ht', hredates⟩ := hs.tables
    have hcount := hredates.edgeCount
    simpa only [edgeCount, ht.tables, ht'.tables] using hcount
  rw [hcount]
  refine .bind (query_agrees .findNodes fun h => h.nodesAt path) fun seeds seeds' hseeds => ?_
  have hids : seeds.map Node.id = seeds'.map Node.id := by
    have hmap := congrArg (List.map Node.id) hseeds
    rwa [List.map_map, List.map_map] at hmap
  have hstart : Impact.Walk.start seeds = .start seeds' := by
    have hmap := congrArg (List.map fun node => (node, (0 : UInt32))) hids
    rw [List.map_map, List.map_map] at hmap
    exact congrArg (fun queue => (⟨queue, [], []⟩ : Impact.Walk)) hmap
  have hlength : seeds.length = seeds'.length := by simpa using congrArg List.length hids
  rw [hstart, hlength]
  refine .bind (run_agrees _ _ _) fun w w' hw => .pure ?_
  rw [show w = w' from hw]

theorem analyzeImpact_agrees (path : String) (depth : Option UInt32) (now now' : Instant) :
    (analyzeImpact path depth now).Agrees id (analyzeImpact path depth now') := by
  refine .get_bind fun s s' hs => ?_
  rw [hs.depth]
  exact .bind (analyze_agrees _ _) fun report report' hreport =>
    .bind (note_agrees _ _) fun _ _ _ => .pure hreport

theorem recordFileUnless_agrees (disturbed : Tables.UpsertStep → Option StorageFault)
    (path content : String) {now now' : Instant}
    (hrow : (NodeRow.ofNode (.file path content now) now).gist =
      (NodeRow.ofNode (.file path content now') now').gist) :
    (recordFileUnless disturbed path content now).Agrees id
      (recordFileUnless disturbed path content now') :=
  .bind (upsertNodeUnless_agrees disturbed hrow) fun _ _ _ =>
    .bind (note_agrees _ _) fun _ _ _ => analyzeImpact_agrees path none now now'

/-! ## Searches -/

theorem find_agrees (text : String) (limit : UInt64) :
    (find text limit).Agrees (List.map Node.undated) (find text limit) := by
  refine .get_bind fun s s' hs => ?_
  rw [hs.engine]
  refine query_agrees .search fun {t t'} h => ?_
  have hread (t : Tables) :
      ((t.search s'.engine text limit).map Prod.fst).map (List.map Node.undated) =
        ((t.search s'.engine text limit).map
          (Prod.map (List.map Node.undated) id)).map Prod.fst := by
    cases t.search s'.engine text limit <;> rfl
  rw [hread, hread, h.search]

theorem searchAtMost_agrees (text : String) (limit : UInt64) :
    (searchAtMost text limit).Agrees (List.map Node.undated) (searchAtMost text limit) := by
  rw [searchAtMost]
  split
  · exact .pure rfl
  · exact find_agrees text limit

theorem search_agrees (text : String) (limit : Option UInt64) (now now' : Instant) :
    (search text limit now).Agrees (List.map Node.undated) (search text limit now') := by
  refine .get_bind fun s s' hs => ?_
  rw [hs.limit]
  exact .bind (searchAtMost_agrees _ _) fun nodes nodes' hnodes =>
    .bind (note_agrees _ _) fun _ _ _ => .pure hnodes

theorem searchDirectly_agrees (text : String) (limit : UInt64) :
    (searchDirectly text limit).Agrees (Prod.map (List.map Node.undated) id)
      (searchDirectly text limit) := by
  intro s s' hs
  obtain ⟨t, t', ht, ht', hredates⟩ := hs.tables
  refine ⟨?_, hs⟩
  have hread {s : Session} {t : Tables} (ht : s.Serves t) :
      (searchDirectly text limit).result s = t.search s.engine text limit := by
    change s.workspace.read (·.search s.engine text limit) = _
    simp only [Workspace.read, Workspace.tables, ht.tables]
    rfl
  rw [hread ht, hread ht', hs.engine, hredates.search]

end Session

/-! ## Calls -/

/-- A node that is stored at two times of which both can be read has rows of the same gist. -/
theorem NodeRow.gist_ofNode {node node' : Node} {now now' : Instant}
    (hnode : node.undated = node'.undated)
    (hyear : 0 ≤ now.date.year ∧ now.date.year ≤ 9999)
    (hyear' : 0 ≤ now'.date.year ∧ now'.date.year ≤ 9999) :
    (ofNode node now).gist = (ofNode node' now').gist := by
  have hgist : (ofNode node now).gist = node.gist := Stored.gist_row (u := ⟨node, now⟩) hyear
  have hgist' : (ofNode node' now').gist = node'.gist := Stored.gist_row (u := ⟨node', now'⟩) hyear'
  rw [hgist, hgist']
  change node.undated.gist = node'.undated.gist
  rw [hnode]

theorem Node.undated_file (path content : String) (now now' : Instant) :
    (file path content now).undated = (file path content now').undated := rfl

/-- The second call is the first one, or the same at another time. The clock shows years of four
    digits if something is stored. -/
inductive Call.Redates : Call → Call → Prop
  | refl (call : Call) : Redates call call
  | upsert (disturbed : Tables.UpsertStep → Option StorageFault) (node node' : Node)
    (now now' : Instant) (hnode : node.undated = node'.undated)
    (hyear : 0 ≤ now.date.year ∧ now.date.year ≤ 9999)
    (hyear' : 0 ≤ now'.date.year ∧ now'.date.year ≤ 9999) :
    Redates (.upsert disturbed node now) (.upsert disturbed node' now')
  | record (disturbed : Tables.UpsertStep → Option StorageFault) (path content : String)
    (now now' : Instant) (hyear : 0 ≤ now.date.year ∧ now.date.year ≤ 9999)
    (hyear' : 0 ≤ now'.date.year ∧ now'.date.year ≤ 9999) :
    Redates (.record disturbed path content now) (.record disturbed path content now')
  | analyzeImpact (path : String) (depth : Option UInt32) (now now' : Instant) :
    Redates (.analyzeImpact path depth now) (.analyzeImpact path depth now')
  | search (text : String) (limit : Option UInt64) (now now' : Instant) :
    Redates (.search text limit now) (.search text limit now')

/-- To make tables that are up to date already, with the same result, leaves sessions that agree. -/
theorem Session.Agrees.setUp {α β : Type} {s s' : Session} (hs : s.Agrees s')
    (f : Tables → Tables × Except StorageFault α) {result : Except StorageFault α}
    (hf : ∀ {t : Tables}, t.IsCurrent → f t = (t, result)) (g : Except StorageFault α → β) :
    g (s.workspace.setUp f).2 = g (s'.workspace.setUp f).2 ∧
      ({ s with workspace := (s.workspace.setUp f).1 } : Session).Agrees
        { s' with workspace := (s'.workspace.setUp f).1 } := by
  obtain ⟨⟨t, t', ht, ht', hredates⟩, hdepth, hlimit, hengine⟩ := hs
  rw [Workspace.setUp_of_tables? ht.tables hredates.left.ne_empty,
    Workspace.setUp_of_tables? ht'.tables hredates.right.ne_empty, hf hredates.left,
    hf hredates.right]
  have htables := Workspace.tables?_withTables ht.tables hredates.left.ne_empty t
  have htables' := Workspace.tables?_withTables ht'.tables hredates.right.ne_empty t'
  exact ⟨rfl, ⟨t, t', ⟨htables, ht.passes⟩, ⟨htables', ht'.passes⟩, hredates⟩, hdepth, hlimit,
    hengine⟩

/-- A call that leaves the gate as it is, made at two times in sessions that agree, has the same
    answer but for timestamps. -/
theorem Call.Redates.agrees {call call' : Call} (h : call.Redates call')
    (hgate : ∀ method allowance, call ≠ .allow method allowance) {s s' : Session}
    (hs : s.Agrees s') :
    (call.answer s).map Answer.undated = (call'.answer s').map Answer.undated ∧
      (call.after s).Agrees (call'.after s') := by
  have hsame {α : Type} {f : α → Answer} :
      ∀ value value', id value = id value' → (f value).undated = (f value').undated :=
    fun _ _ hvalue => congrArg (fun value => (f value).undated) hvalue
  cases h with
  | upsert disturbed node node' now now' hnode hyear hyear' =>
    exact (Session.upsertNodeUnless_agrees disturbed
      (NodeRow.gist_ofNode hnode hyear hyear')).answer hs hsame
  | record disturbed path content now now' hyear hyear' =>
    have hrow := NodeRow.gist_ofNode (Node.undated_file path content now now') hyear hyear'
    exact (Session.recordFileUnless_agrees disturbed path content hrow).answer hs hsame
  | analyzeImpact path depth now now' =>
    exact (Session.analyzeImpact_agrees path depth now now').answer hs hsame
  | search text limit now now' =>
    exact (Session.search_agrees text limit now now').answer hs fun _ _ => congrArg Answer.nodes
  | refl call =>
    cases call with
    | upsert disturbed node now =>
      exact (Session.upsertNodeUnless_agrees disturbed rfl).answer hs hsame
    | record disturbed path content now =>
      exact (Session.recordFileUnless_agrees disturbed path content rfl).answer hs hsame
    | addEdge edge => exact (Session.addEdge_agrees edge).answer hs hsame
    | getNode id =>
      exact (Session.query_agrees .getNode fun h => h.node? id).answer hs fun _ _ =>
        congrArg Answer.node
    | nodesAt path =>
      exact (Session.query_agrees .findNodes fun h => h.nodesAt path).answer hs fun _ _ =>
        congrArg Answer.nodes
    | edgesOf id =>
      exact (Session.query_agrees .getEdges fun h => by rw [h.edgesOf]).answer hs hsame
    | stats => exact (Session.query_agrees .getStats fun h => by rw [h.stats]).answer hs hsame
    | analyze path depth => exact (Session.analyze_agrees path depth).answer hs hsame
    | analyzeImpact path depth now =>
      exact (Session.analyzeImpact_agrees path depth now now).answer hs hsame
    | find text limit =>
      exact (Session.find_agrees text limit).answer hs fun _ _ => congrArg Answer.nodes
    | searchAtMost text limit =>
      exact (Session.searchAtMost_agrees text limit).answer hs fun _ _ => congrArg Answer.nodes
    | search text limit now =>
      exact (Session.search_agrees text limit now now).answer hs fun _ _ => congrArg Answer.nodes
    | searchDirectly text limit =>
      exact (Session.searchDirectly_agrees text limit).answer hs fun _ _ hfound =>
        congrArg (fun found : List Node × SearchRoute => Answer.found found.1 found.2) hfound
    | clearEvents => exact ⟨rfl, hs.withEvents [] []⟩
    | migrate => exact hs.setUp Tables.migrate (·.migrate) fun result =>
        (Answer.ofSetup (fun _ => .done) (result.mapError _)).map Answer.undated
    | schemaStatus => exact hs.setUp Tables.schemaStatus (·.schemaStatus) fun result =>
        (Answer.ofSetup .status (result.mapError _)).map Answer.undated
    | needsMigration => exact hs.setUp Tables.schemaStatus (·.schemaStatus) fun result =>
        (Answer.ofSetup .outdated ((result.map _).mapError _)).map Answer.undated
    | allow method allowance => exact absurd rfl (hgate method allowance)

end Ripple
