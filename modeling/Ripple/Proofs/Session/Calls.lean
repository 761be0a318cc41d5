import Ripple.Proofs.Session.Serving
import Ripple.Proofs.Store.Writes

/-!
# Runs of calls

A `Call` is what a caller asks of a session, or a change of what the gate lets pass, so
that a run of calls (`Session.run`) may see any of them fail. Storing a node may also be
disturbed at each of its steps.

What is made of queries leads to a related session wherever queries do (`Session.Frame`). So a call
that only reads leaves the disk and the database as they are (`Action.Keeps`), and no call changes
more than the workspace, the gate and the audit trail (`Call.continues`). Any other call makes
one write if it succeeds and none if it fails (`Call.write?`); a file is recorded as soon as its
node is stored. So a run leaves the tables that its writes make of those at its beginning
(`Session.tables?_run`).
-/

namespace Ripple

/-! ## Calls -/

/-- What can happen to a session between its opening and its closing. -/
inductive Call where
  /-- A node is stored. -/
  | upsert (disturbed : Tables.UpsertStep → Option StorageFault) (node : Node) (now : Instant)
  /-- A file is recorded. -/
  | record (disturbed : Tables.UpsertStep → Option StorageFault) (path content : String)
    (now : Instant)
  /-- An edge is stored. -/
  | addEdge (edge : NewEdge)
  /-- A node is read. -/
  | getNode (id : String)
  /-- The nodes of a file are read. -/
  | nodesAt (path : String)
  /-- The edges of a node are read. -/
  | edgesOf (id : String)
  /-- The sizes are read. -/
  | stats
  /-- A file is analyzed, without an entry in the audit trail. -/
  | analyze (path : String) (depth : UInt32)
  /-- A file is analyzed. -/
  | analyzeImpact (path : String) (depth : Option UInt32) (now : Instant)
  /-- The store is searched. -/
  | find (text : String) (limit : UInt64)
  /-- Nodes are searched, without an entry in the audit trail. -/
  | searchAtMost (text : String) (limit : UInt64)
  /-- Nodes are searched. -/
  | search (text : String) (limit : Option UInt64) (now : Instant)
  /-- The store is searched past the gate. -/
  | searchDirectly (text : String) (limit : UInt64)
  /-- The audit trail is emptied. -/
  | clearEvents
  /-- The schema is brought up to date. -/
  | migrate
  /-- The version of the schema is read. -/
  | schemaStatus
  /-- Whether the schema is up to date is read. -/
  | needsMigration
  /-- The gate lets so many more requests of a method pass. -/
  | allow (method : Method) (allowance : Option ℕ)

namespace Call

/-- The session after a call. -/
def after (s : Session) : Call → Session
  | upsert disturbed node now => (Session.upsertNodeUnless disturbed node now).after s
  | record disturbed path content now =>
    (Session.recordFileUnless disturbed path content now).after s
  | addEdge edge => (Session.addEdge edge).after s
  | getNode id => (Session.getNode id).after s
  | nodesAt path => (Session.nodesAt path).after s
  | edgesOf id => (Session.edgesOf id).after s
  | stats => Session.stats.after s
  | analyze path depth => (Session.analyze path depth).after s
  | analyzeImpact path depth now => (Session.analyzeImpact path depth now).after s
  | find text limit => (Session.find text limit).after s
  | searchAtMost text limit => (Session.searchAtMost text limit).after s
  | search text limit now => (Session.search text limit now).after s
  | searchDirectly text limit => (Session.searchDirectly text limit).after s
  | clearEvents => s.clearEvents
  | migrate => { s with workspace := s.workspace.migrate.1 }
  | schemaStatus => { s with workspace := s.workspace.schemaStatus.1 }
  | needsMigration => { s with workspace := s.workspace.needsMigration.1 }
  | allow method allowance => { s with gate := s.gate.allow method allowance }

/-- The write that a call makes, if it makes one. Recording a file stores its node even if
    the analysis fails. -/
def write? (s : Session) : Call → Option Write
  | upsert disturbed node now =>
    ((Session.upsertNodeUnless disturbed node now).result s).toOption.map fun _ =>
      .putNode node now
  | record disturbed path content now =>
    let node := Node.file path content now
    ((Session.upsertNodeUnless disturbed node now).result s).toOption.map fun _ =>
      .putNode node now
  | addEdge edge => ((Session.addEdge edge).result s).toOption.map fun _ => .putEdge edge
  | _ => none

end Call

namespace Session

/-- The session after a run of calls. -/
def run (s : Session) (calls : List Call) : Session := calls.foldl Call.after s

/-- The writes of a run of calls. -/
def writes (s : Session) : List Call → List Write
  | [] => []
  | call :: calls => (call.write? s).toList ++ (call.after s).writes calls

end Session

/-! ## Reads -/

/-- An action that leads from any session to a related one. -/
def Action.Leads {α : Type} (r : Session → Session → Prop) (a : Action α) : Prop :=
  ∀ s, r s (a.after s)

/-- A relation in which sessions stand before and after queries, however many there are. -/
structure Session.Frame (r : Session → Session → Prop) : Prop where
  refl (s : Session) : r s s
  trans {s s' s'' : Session} (h : r s s') (h' : r s' s'') : r s s''
  query {α : Type} (method : Method) (f : Tables → Except GraphError α) :
    (query method f).Leads r

namespace Session.Frame

variable {α β : Type} {r : Session → Session → Prop}

theorem pure (hr : Frame r) (value : α) : Action.Leads r (Pure.pure value : Action α) := hr.refl

theorem get (hr : Frame r) : Action.Leads r (MonadState.get : Action Session) := hr.refl

theorem bind (hr : Frame r) {a : Action α} {f : α → Action β} (ha : a.Leads r)
    (hf : ∀ value, (f value).Leads r) : (a >>= f).Leads r := by
  intro s
  cases h : a.result s with
  | ok value =>
    rw [(Action.bind_of_ok h f).2]
    exact hr.trans (ha s) (hf value _)
  | error e =>
    rw [(Action.bind_of_error h f).2]
    exact ha s

theorem composes (hr : Frame r) :
    Impact.Composes fun α (a _ : Action α) => a.Leads r where
  pure := hr.pure
  bind := hr.bind

theorem analyze (hr : Frame r) (path : String) (depth : UInt32) :
    (Session.analyze path depth).Leads r := by
  have hsource : source.Relates (fun α (a _ : Action α) => a.Leads r) source :=
    ⟨fun _ => hr.query _ _, fun _ => hr.query _ _, fun _ => hr.query _ _⟩
  exact hr.bind hr.get fun s => hr.composes.analyze hsource s.edgeCount path depth

theorem find (hr : Frame r) (text : String) (limit : UInt64) :
    (Session.find text limit).Leads r :=
  hr.bind hr.get fun _ => hr.query _ _

theorem searchAtMost (hr : Frame r) (text : String) (limit : UInt64) :
    (Session.searchAtMost text limit).Leads r := by
  rw [Session.searchAtMost]
  split
  · exact hr.pure _
  · exact hr.find text limit

end Session.Frame

/-- An action that leaves the disk and the database as they are. -/
def Action.Keeps {α : Type} (a : Action α) : Prop := ∀ s, (a.after s).workspace = s.workspace

namespace Session

theorem query_keeps {α : Type} (method : Method) (f : Tables → Except GraphError α) :
    (query method f).Keeps := by
  intro s
  cases h : (s.gate.pass method).2 with
  | true => rw [query, (request_of_pass h).2]
  | false => rw [query, (request_of_refusal h).2]

theorem frame_keeps : Frame fun s s' => s'.workspace = s.workspace where
  refl _ := rfl
  trans h h' := h'.trans h
  query := query_keeps

theorem note_keeps (event : Event) : (note event).Keeps := fun _ => rfl

theorem analyze_keeps (path : String) (depth : UInt32) : (analyze path depth).Keeps :=
  frame_keeps.analyze path depth

theorem analyzeImpact_keeps (path : String) (depth : Option UInt32) (now : Instant) :
    (analyzeImpact path depth now).Keeps :=
  frame_keeps.bind frame_keeps.get fun _ => frame_keeps.bind (analyze_keeps _ _) fun _ =>
    frame_keeps.bind (note_keeps _) fun _ => frame_keeps.pure _

theorem find_keeps (text : String) (limit : UInt64) : (find text limit).Keeps :=
  frame_keeps.find text limit

theorem searchAtMost_keeps (text : String) (limit : UInt64) : (searchAtMost text limit).Keeps :=
  frame_keeps.searchAtMost text limit

theorem search_keeps (text : String) (limit : Option UInt64) (now : Instant) :
    (search text limit now).Keeps :=
  frame_keeps.bind frame_keeps.get fun _ => frame_keeps.bind (searchAtMost_keeps _ _) fun _ =>
    frame_keeps.bind (note_keeps _) fun _ => frame_keeps.pure _

/-- A search that cannot find anything succeeds, and changes nothing but the audit trail. -/
theorem search_of_blank {s : Session} {text : String} {limit : Option UInt64}
    (h : text = "" ∨ limit.getD s.defaultLimit = 0) (now : Instant) :
    (search text limit now).result s = .ok [] ∧ (search text limit now).after s =
      { s with
        events := s.events ++ [.searchPerformed text (limit.getD s.defaultLimit) 0 now] } := by
  have hblank : searchAtMost text (limit.getD s.defaultLimit) = pure [] := if_pos h
  rw [search, (Action.get_bind _ s).1, (Action.get_bind _ s).2]
  dsimp only
  rw [hblank]
  exact ⟨rfl, rfl⟩

/-! ## Writes -/

variable {s : Session} {t : Tables} {disturbed : Tables.UpsertStep → Option StorageFault}
  {node : Node} {edge : NewEdge} {now : Instant} {path content : String}

/-- A node that is stored is stored undisturbed; one that is not changes nothing. -/
theorem upsertNodeUnless_cases (h : s.workspace.tables? = some t) (hne : t ≠ .empty) :
    ((upsertNodeUnless disturbed node now).result s = .ok () ∧
      ((upsertNodeUnless disturbed node now).after s).workspace.tables? =
        some ((Write.putNode node now).apply t)) ∨
    ∃ e, (upsertNodeUnless disturbed node now).result s = .error e ∧
      ((upsertNodeUnless disturbed node now).after s).workspace.tables? = some t := by
  -- It is refused by the gate, disturbed in the database, or stored.
  cases hpass : (s.gate.pass .upsertNode).2 with
  | false =>
    obtain ⟨hresult, hafter⟩ := request_of_refusal hpass
    exact .inr ⟨_, hresult, by rw [upsertNodeUnless, hafter]; exact h⟩
  | true =>
    obtain ⟨hresult, hafter⟩ := request_of_pass hpass
    rw [upsertNodeUnless, hresult, hafter, Workspace.write_of_tables? h]
    cases hwrite : (t.upsertUnless disturbed node now).2 with
    | ok =>
      rw [Tables.upsertUnless_of_ok hwrite]
      exact .inl ⟨rfl, Workspace.tables?_withTables h hne _⟩
    | error e =>
      rw [Tables.upsertUnless_of_error hwrite]
      exact .inr ⟨_, rfl, Workspace.tables?_withTables h hne _⟩

/-- An edge is stored or nothing is changed. -/
theorem addEdge_cases (h : s.workspace.tables? = some t) (hne : t ≠ .empty) :
    (∃ id, (addEdge edge).result s = .ok id ∧
      ((addEdge edge).after s).workspace.tables? = some ((Write.putEdge edge).apply t)) ∨
    ∃ e, (addEdge edge).result s = .error e ∧
      ((addEdge edge).after s).workspace.tables? = some t := by
  cases hpass : (s.gate.pass .addEdge).2 with
  | false =>
    obtain ⟨hresult, hafter⟩ := request_of_refusal hpass
    exact .inr ⟨_, hresult, by rw [addEdge, hafter]; exact h⟩
  | true =>
    obtain ⟨hresult, hafter⟩ := request_of_pass hpass
    rw [addEdge, hresult, hafter]
    cases hadd : t.addEdge edge with
    | ok added =>
      rw [Workspace.change_of_ok h hadd, Write.apply, hadd]
      exact .inl ⟨_, rfl, Workspace.tables?_withTables h hne _⟩
    | error e =>
      rw [Workspace.change_of_error h hadd]
      exact .inr ⟨_, rfl, h⟩

/-- Recording a file leaves the workspace as it is when its node has been stored. -/
theorem recordFileUnless_workspace :
    ((recordFileUnless disturbed path content now).after s).workspace =
      ((upsertNodeUnless disturbed (.file path content now) now).after s).workspace := by
  cases h : (upsertNodeUnless disturbed (.file path content now) now).result s with
  | error e => rw [recordFileUnless, (Action.bind_of_error h _).2]
  | ok value =>
    rw [recordFileUnless, (Action.bind_of_ok h _).2]
    exact frame_keeps.bind (note_keeps _) (fun _ => analyzeImpact_keeps _ _ _) _

end Session

/-! ## What stays -/

/-- The second session is the first one, but for the workspace, the gate and the audit trail. -/
def Session.Continues (s s' : Session) : Prop :=
  ∃ workspace gate events, s' = { s with workspace, gate, events }

namespace Session

theorem continues_request {α : Type} (method : Method)
    (f : Workspace → Workspace × Except GraphError α) : (request method f).Leads Continues := by
  intro s
  cases h : (s.gate.pass method).2 with
  | true =>
    rw [(request_of_pass h).2]
    exact ⟨_, _, s.events, rfl⟩
  | false =>
    rw [(request_of_refusal h).2]
    exact ⟨s.workspace, _, s.events, rfl⟩

theorem frame_continues : Frame Continues where
  refl s := ⟨s.workspace, s.gate, s.events, rfl⟩
  trans h h' := by
    obtain ⟨_, _, _, rfl⟩ := h
    obtain ⟨workspace, gate, events, rfl⟩ := h'
    exact ⟨workspace, gate, events, rfl⟩
  query method _ := continues_request method _

theorem continues_note (event : Event) : (note event).Leads Continues :=
  fun s => ⟨s.workspace, s.gate, s.events ++ [event], rfl⟩

theorem continues_analyzeImpact (path : String) (depth : Option UInt32) (now : Instant) :
    (analyzeImpact path depth now).Leads Continues :=
  frame_continues.bind frame_continues.get fun _ =>
    frame_continues.bind (frame_continues.analyze _ _) fun _ =>
      frame_continues.bind (continues_note _) fun _ => frame_continues.pure _

theorem continues_search (text : String) (limit : Option UInt64) (now : Instant) :
    (search text limit now).Leads Continues :=
  frame_continues.bind frame_continues.get fun _ =>
    frame_continues.bind (frame_continues.searchAtMost _ _) fun _ =>
      frame_continues.bind (continues_note _) fun _ => frame_continues.pure _

end Session

theorem Call.continues (s : Session) (call : Call) : s.Continues (call.after s) := by
  have hframe := Session.frame_continues
  cases call with
  | upsert disturbed node now => exact Session.continues_request _ _ s
  | record disturbed path content now =>
    exact hframe.bind (Session.continues_request _ _) (fun _ =>
      hframe.bind (Session.continues_note _) fun _ => Session.continues_analyzeImpact _ _ _) s
  | addEdge edge => exact Session.continues_request _ _ s
  | getNode id => exact hframe.query _ _ s
  | nodesAt path => exact hframe.query _ _ s
  | edgesOf id => exact hframe.query _ _ s
  | stats => exact hframe.query _ _ s
  | analyze path depth => exact hframe.analyze path depth s
  | analyzeImpact path depth now => exact Session.continues_analyzeImpact path depth now s
  | find text limit => exact hframe.find text limit s
  | searchAtMost text limit => exact hframe.searchAtMost text limit s
  | search text limit now => exact Session.continues_search text limit now s
  | searchDirectly text limit => exact hframe.refl s
  | clearEvents => exact ⟨s.workspace, s.gate, [], rfl⟩
  | migrate => exact ⟨_, s.gate, s.events, rfl⟩
  | schemaStatus => exact ⟨_, s.gate, s.events, rfl⟩
  | needsMigration => exact ⟨_, s.gate, s.events, rfl⟩
  | allow method allowance => exact ⟨s.workspace, _, s.events, rfl⟩

/-- A run changes neither what reads search texts nor the depth and the limit that hold. -/
theorem Session.continues_run (s : Session) (calls : List Call) : s.Continues (s.run calls) := by
  induction calls generalizing s with
  | nil => exact frame_continues.refl s
  | cons call calls ih => exact frame_continues.trans (call.continues s) (ih (call.after s))

theorem Session.engine_run (s : Session) (calls : List Call) :
    (s.run calls).engine = s.engine := by
  obtain ⟨workspace, gate, events, hrun⟩ := s.continues_run calls
  rw [hrun]

/-! ## Runs -/

variable {s : Session} {t : Tables}

/-- After a call the database holds what the write of the call makes of its tables. -/
theorem Call.tables?_after (h : s.workspace.tables? = some t) (ht : t.IsCurrent) (call : Call) :
    (call.after s).workspace.tables? = some ((call.write? s).toList.foldl Write.apply t) := by
  -- Reads keep the workspace, and the other calls make the write that they report or none.
  have hread {α : Type} {a : Action α} (ha : a.Keeps) : (a.after s).workspace.tables? = some t := by
    rw [ha s, h]
  have hupsert (disturbed : Tables.UpsertStep → Option StorageFault) (node : Node)
      (now : Instant) :
      ((Session.upsertNodeUnless disturbed node now).after s).workspace.tables? =
        some ((((Session.upsertNodeUnless disturbed node now).result s).toOption.map fun _ =>
          Write.putNode node now).toList.foldl Write.apply t) := by
    rcases Session.upsertNodeUnless_cases h ht.ne_empty with ⟨hr, ha⟩ | ⟨e, hr, ha⟩ <;>
      · rw [ha, hr]
        rfl
  have hsetUp {α : Type} (f : Tables → Tables × Except StorageFault α) :=
    Workspace.setUp_of_tables? (f := f) h ht.ne_empty
  cases call with
  | upsert disturbed node now => exact hupsert disturbed node now
  | record disturbed path content now =>
    rw [after, Session.recordFileUnless_workspace]
    exact hupsert disturbed _ now
  | addEdge edge =>
    simp only [after, write?]
    rcases Session.addEdge_cases h ht.ne_empty with ⟨id, hr, ha⟩ | ⟨e, hr, ha⟩ <;>
      · rw [ha, hr]
        rfl
  | getNode id => exact hread (Session.query_keeps _ _)
  | nodesAt path => exact hread (Session.query_keeps _ _)
  | edgesOf id => exact hread (Session.query_keeps _ _)
  | stats => exact hread (Session.query_keeps _ _)
  | analyze path depth => exact hread (Session.analyze_keeps _ _)
  | analyzeImpact path depth now => exact hread (Session.analyzeImpact_keeps _ _ _)
  | find text limit => exact hread (Session.find_keeps _ _)
  | searchAtMost text limit => exact hread (Session.searchAtMost_keeps _ _)
  | search text limit now => exact hread (Session.search_keeps _ _ _)
  | searchDirectly text limit => exact h
  | clearEvents => exact h
  | migrate =>
    simp only [after, Workspace.migrate, hsetUp, ht.migrate]
    exact Workspace.tables?_withTables h ht.ne_empty t
  | schemaStatus =>
    simp only [after, Workspace.schemaStatus, hsetUp, ht.schemaStatus]
    exact Workspace.tables?_withTables h ht.ne_empty t
  | needsMigration =>
    simp only [after, Workspace.needsMigration, hsetUp, ht.schemaStatus]
    exact Workspace.tables?_withTables h ht.ne_empty t
  | allow method allowance => exact h

/-- After a run the database holds what the writes of the run make of its tables. -/
theorem Session.tables?_run (h : s.workspace.tables? = some t) (ht : t.IsCurrent)
    (calls : List Call) :
    (s.run calls).workspace.tables? = some ((s.writes calls).foldl Write.apply t) := by
  induction calls generalizing s t with
  | nil => exact h
  | cons call calls ih =>
    rw [Session.writes, List.foldl_append]
    exact ih (call.tables?_after h ht) (ht.foldl_apply _)

end Ripple
