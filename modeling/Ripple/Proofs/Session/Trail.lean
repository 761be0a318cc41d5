import Ripple.Proofs.Session.Calls
import Ripple.Proofs.Store.Search

/-!
# The audit trail

What a call has to leave in the audit trail follows from the call and its answer (`Call.entries`).
What it leaves besides is a workspace and a gate (`Call.adds_entries`).

An `Incident` is a call, or a change that somebody else makes to the disk and the database, so that
in a run of incidents any call may fail at any time. After any run the audit trail is made of the
entries of the calls since it was emptied last, one after another (`events_live`).
-/

namespace Ripple

/-! ## Additions -/

/-- The second session is the first one with some more entries, and with any workspace and gate. -/
def Session.Adds (entries : List Event) (s s' : Session) : Prop :=
  ∃ workspace gate, s' = { s with workspace, gate, events := s.events ++ entries }

/-- An action that leaves an entry if it succeeds. -/
def Action.noted {α : Type} (a : Action α) (entry : α → Event) : Action α := do
  let value ← a
  Session.note (entry value)
  return value

namespace Session

variable {α : Type} {s s' s'' : Session} {entries entries' : List Event} {method : Method}
  {path content text : String} {now : Instant}

/-- Whatever happens to the workspace and the gate leaves no entry. -/
theorem Adds.nil (s : Session) (workspace : Workspace) (gate : Gate) :
    s.Adds [] { s with workspace, gate } := ⟨workspace, gate, by rw [List.append_nil]⟩

theorem Adds.refl (s : Session) : s.Adds [] s := .nil s _ _

theorem Adds.trans (h : s.Adds entries s') (h' : s'.Adds entries' s'') :
    s.Adds (entries ++ entries') s'' := by
  obtain ⟨workspace, gate, rfl⟩ := h
  obtain ⟨workspace', gate', rfl⟩ := h'
  exact ⟨workspace', gate', by rw [List.append_assoc]⟩

theorem Adds.note (s : Session) (event : Event) : s.Adds [event] ((note event).after s) :=
  ⟨s.workspace, s.gate, rfl⟩

theorem Adds.defaults (h : s.Adds entries s') :
    s'.defaultDepth = s.defaultDepth ∧ s'.defaultLimit = s.defaultLimit := by
  obtain ⟨workspace, gate, rfl⟩ := h
  exact ⟨rfl, rfl⟩

theorem Adds.events_eq (h : s.Adds entries s') (hs : s.events = []) : s'.events = entries := by
  obtain ⟨workspace, gate, rfl⟩ := h
  exact hs ▸ List.nil_append entries

/-- A request leaves no entry. -/
theorem request_adds (method : Method) (f : Workspace → Workspace × Except GraphError α) :
    (request method f).Leads (Adds []) := by
  intro s
  cases h : (s.gate.pass method).2 with
  | true =>
    rw [(request_of_pass h).2]
    exact .nil s _ _
  | false =>
    rw [(request_of_refusal h).2]
    exact .nil s _ _

theorem frame_adds : Frame (Adds []) where
  refl := Adds.refl
  trans h h' := h.trans h'
  query method _ := request_adds method _

end Session

namespace Action

variable {α : Type} {a : Action α} {entry : α → Event}

theorem noted_result (a : Action α) (entry : α → Event) (s : Session) :
    (a.noted entry).result s = a.result s := by
  cases h : a.result s with
  | ok value => exact (bind_of_ok h _).1
  | error e => exact (bind_of_error h _).1

/-- What leaves no entry leaves one of success. -/
theorem adds_noted (ha : a.Leads (Session.Adds [])) (s : Session) :
    s.Adds (((a.noted entry).result s).toOption.map entry).toList ((a.noted entry).after s) := by
  rw [noted_result]
  cases h : a.result s with
  | ok value =>
    rw [noted, (bind_of_ok h _).2]
    exact (ha s).trans (.note _ (entry value))
  | error e =>
    rw [noted, (bind_of_error h _).2]
    exact ha s

end Action

namespace Session

variable (s : Session) (path text : String) (now : Instant)

/-- An analysis that succeeds leaves an entry with the depth that holds and the number of files. -/
theorem analyzeImpact_adds (depth : Option UInt32) :
    s.Adds (((analyzeImpact path depth now).result s).toOption.map fun report =>
      .impactAnalyzed path (depth.getD s.defaultDepth) report.files.length now).toList
      ((analyzeImpact path depth now).after s) := by
  rw [analyzeImpact, (Action.get_bind _ s).1, (Action.get_bind _ s).2]
  exact Action.adds_noted (frame_adds.analyze path _) s

/-- A search that succeeds leaves an entry with the limit that holds and the number of nodes. -/
theorem search_adds (limit : Option UInt64) :
    s.Adds (((search text limit now).result s).toOption.map fun nodes =>
      .searchPerformed text (limit.getD s.defaultLimit) nodes.length now).toList
      ((search text limit now).after s) := by
  rw [search, (Action.get_bind _ s).1, (Action.get_bind _ s).2]
  exact Action.adds_noted (frame_adds.searchAtMost text _) s

theorem search_result (limit : Option UInt64) :
    (search text limit now).result s =
      (searchAtMost text (limit.getD s.defaultLimit)).result s := by
  rw [search, (Action.get_bind _ s).1]
  exact Action.noted_result _ _ s

/-- Recording a file leaves no entry if its node is not stored. -/
theorem recordFileUnless_adds_of_error {disturbed : Tables.UpsertStep → Option StorageFault}
    {content : String} {e : GraphError}
    (h : (upsertNodeUnless disturbed (.file path content now) now).result s = .error e) :
    s.Adds [] ((recordFileUnless disturbed path content now).after s) := by
  rw [recordFileUnless, (Action.bind_of_error h _).2]
  exact request_adds _ _ s

/-- Recording a file whose node is stored leaves an entry, and those of an analysis. -/
theorem recordFileUnless_adds {disturbed : Tables.UpsertStep → Option StorageFault}
    {content : String}
    (h : (upsertNodeUnless disturbed (.file path content now) now).result s = .ok ()) :
    s.Adds (.fileRecorded ("file:" ++ path) path now ::
      (((recordFileUnless disturbed path content now).result s).toOption.map fun report =>
        .impactAnalyzed path s.defaultDepth report.files.length now).toList)
      ((recordFileUnless disturbed path content now).after s) := by
  have hstored : s.Adds [] ((upsertNodeUnless disturbed (.file path content now) now).after s) :=
    request_adds _ _ s
  rw [recordFileUnless, (Action.bind_of_ok h _).1, (Action.bind_of_ok h _).2]
  -- The analysis begins in a session that has the entry of the file already.
  generalize (upsertNodeUnless disturbed (.file path content now) now).after s = stored
    at hstored ⊢
  have hrecorded := hstored.trans (.note stored (.fileRecorded ("file:" ++ path) path now))
  have hanalysis := analyzeImpact_adds
    ((note (.fileRecorded ("file:" ++ path) path now)).after stored) path now none
  rw [Option.getD_none, hrecorded.defaults.1] at hanalysis
  exact hrecorded.trans hanalysis

/-- No more nodes are found than are asked for. -/
theorem length_le_of_searchAtMost {s : Session} {limit : UInt64} {nodes : List Node}
    (h : (searchAtMost text limit).result s = .ok nodes) : nodes.length ≤ limit.toNat := by
  rw [searchAtMost] at h
  split at h
  · obtain rfl := Except.ok.inj h
    exact Nat.zero_le _
  · obtain ⟨t, -, hfound⟩ := exists_of_query h
    obtain ⟨⟨found, route⟩, hsearch, rfl⟩ := map_eq_ok.1 hfound
    exact Tables.length_le_of_search hsearch

end Session

/-! ## Entries -/

/-- What a call has to leave in the audit trail. -/
def Call.entries (config : Config) (s : Session) : Call → List Event
  | record disturbed path content now =>
    match (Session.upsertNodeUnless disturbed (.file path content now) now).result s,
      (Session.recordFileUnless disturbed path content now).result s with
    | .error _, _ => []
    | .ok _, .error _ => [.fileRecorded ("file:" ++ path) path now]
    | .ok _, .ok report =>
      [.fileRecorded ("file:" ++ path) path now,
        .impactAnalyzed path config.impact.maxDepth report.files.length now]
  | analyzeImpact path depth now =>
    match (Session.analyzeImpact path depth now).result s with
    | .error _ => []
    | .ok report =>
      [.impactAnalyzed path (depth.getD config.impact.maxDepth) report.files.length now]
  | search text limit now =>
    match (Session.search text limit now).result s with
    | .error _ => []
    | .ok nodes =>
      [.searchPerformed text (limit.getD config.search.defaultLimit) nodes.length now]
  | _ => []

/-- A session with the depth and the limit of a configuration. -/
def Session.Follows (config : Config) (s : Session) : Prop :=
  s.defaultDepth = config.impact.maxDepth ∧ s.defaultLimit = config.search.defaultLimit

namespace Call

variable {config : Config} {s : Session}

/-- A call leaves its entries. -/
theorem adds_entries (hs : s.Follows config) (call : Call) (hcall : call ≠ .clearEvents) :
    s.Adds (call.entries config s) (call.after s) := by
  obtain ⟨hdepth, hlimit⟩ := hs
  -- Three calls note what they have done; any other one makes requests at most.
  cases call with
  | upsert disturbed node now => exact Session.request_adds _ _ s
  | record disturbed path content now =>
    rw [entries, after]
    cases hstored : (Session.upsertNodeUnless disturbed (.file path content now) now).result s with
    | error e => exact Session.recordFileUnless_adds_of_error s path now hstored
    | ok value =>
      have hadds := Session.recordFileUnless_adds s path now hstored
      rw [hdepth] at hadds
      cases h : (Session.recordFileUnless disturbed path content now).result s with
      | error e => rwa [h] at hadds
      | ok report => rwa [h] at hadds
  | analyzeImpact path depth now =>
    have hadds := Session.analyzeImpact_adds s path now depth
    rw [hdepth] at hadds
    rw [entries, after]
    cases h : (Session.analyzeImpact path depth now).result s with
    | error e => rwa [h] at hadds
    | ok report => rwa [h] at hadds
  | search text limit now =>
    have hadds := Session.search_adds s text now limit
    rw [hlimit] at hadds
    rw [entries, after]
    cases h : (Session.search text limit now).result s with
    | error e => rwa [h] at hadds
    | ok nodes => rwa [h] at hadds
  | addEdge edge => exact Session.request_adds _ _ s
  | getNode id => exact Session.request_adds _ _ s
  | nodesAt path => exact Session.request_adds _ _ s
  | edgesOf id => exact Session.request_adds _ _ s
  | stats => exact Session.request_adds _ _ s
  | find text limit => exact Session.frame_adds.find text limit s
  | analyze path depth => exact Session.frame_adds.analyze path depth s
  | searchAtMost text limit => exact Session.frame_adds.searchAtMost text limit s
  | searchDirectly text limit => exact .refl s
  | clearEvents => exact absurd rfl hcall
  | migrate => exact .nil s _ _
  | schemaStatus => exact .nil s _ _
  | needsMigration => exact .nil s _ _
  | allow method allowance => exact .nil s _ _

end Call

/-! ## Runs -/

/-- What can happen while a session is open. -/
inductive Incident where
  /-- A call is made. -/
  | call (made : Call)
  /-- Something else happens to the disk, the database or the gate. -/
  | disturbance (workspace : Workspace) (gate : Gate)

namespace Incident

/-- The session after an incident. -/
def after (s : Session) : Incident → Session
  | call made => made.after s
  | disturbance workspace gate => { s with workspace, gate }

/-- What an incident has to leave in the audit trail. -/
def entries (config : Config) (s : Session) : Incident → List Event
  | call made => made.entries config s
  | disturbance _ _ => []

end Incident

namespace Session

/-- The session after a run of incidents. -/
def live (s : Session) (incidents : List Incident) : Session := incidents.foldl Incident.after s

/-- What a run of incidents has to leave in the audit trail. -/
def entries (config : Config) (s : Session) : List Incident → List Event
  | [] => []
  | incident :: incidents =>
    incident.entries config s ++ (incident.after s).entries config incidents

variable {config : Config} {s s' : Session} {entries : List Event} {incident : Incident}
  {incidents : List Incident}

theorem follows_start (config : Config) (w : Workspace) : (start config w).Follows config :=
  ⟨rfl, rfl⟩

theorem Follows.adds (hs : s.Follows config) (h : s.Adds entries s') : s'.Follows config :=
  ⟨h.defaults.1.trans hs.1, h.defaults.2.trans hs.2⟩

theorem Follows.adds_entries (hs : s.Follows config)
    (hincident : incident ≠ .call .clearEvents) :
    s.Adds (incident.entries config s) (incident.after s) := by
  cases incident with
  | call made => exact made.adds_entries hs fun h => hincident (congrArg _ h)
  | disturbance workspace gate => exact .nil s workspace gate

theorem Follows.after (hs : s.Follows config) (incident : Incident) :
    (incident.after s).Follows config := by
  by_cases h : incident = .call .clearEvents
  · subst h
    exact hs
  · exact hs.adds (hs.adds_entries h)

theorem Follows.live (hs : s.Follows config) (incidents : List Incident) :
    (s.live incidents).Follows config := by
  induction incidents generalizing s with
  | nil => exact hs
  | cons incident incidents ih => exact ih (hs.after incident)

/-- A run that does not empty the audit trail leaves its entries. -/
theorem Follows.adds_live (hs : s.Follows config)
    (hincidents : .call .clearEvents ∉ incidents) :
    s.Adds (s.entries config incidents) (s.live incidents) := by
  induction incidents generalizing s with
  | nil => exact .refl s
  | cons incident incidents ih =>
    -- The rest of the run adds its entries to those of the first incident.
    rw [List.mem_cons, not_or] at hincidents
    exact (hs.adds_entries (Ne.symm hincidents.1)).trans (ih (hs.after incident) hincidents.2)

end Session

/-- The audit trail holds the entries of what has happened since it was emptied last. A search finds
    no more nodes than its limit says, and one without a text or with a limit of zero succeeds
    without a request to the store. -/
theorem events_live (config : Config) (w : Workspace) (before : List Incident)
    {recent : List Incident} (hrecent : .call .clearEvents ∉ recent) :
    let opened := Session.start config w
    (opened.live recent).events = opened.entries config recent ∧
      (opened.live (before ++ .call .clearEvents :: recent)).events =
        (opened.live before).clearEvents.entries config recent ∧
      ∀ text limit now,
        let search := Session.search text limit now
        let most := limit.getD config.search.defaultLimit
        (∀ nodes, search.result (opened.live before) = .ok nodes → nodes.length ≤ most.toNat) ∧
          (text = "" ∨ most = 0 → search.result (opened.live before) = .ok [] ∧
            ∃ events, search.after (opened.live before) = { opened.live before with events }) := by
  intro opened
  have hopened : opened.Follows config := Session.follows_start config w
  have hbefore := hopened.live before
  have hcleared : (opened.live before).clearEvents.Follows config := hbefore
  refine ⟨(hopened.adds_live hrecent).events_eq rfl, ?_, fun text limit now => ⟨?_, ?_⟩⟩
  · rw [Session.live, List.foldl_append]
    exact (hcleared.adds_live hrecent).events_eq rfl
  · intro nodes h
    rw [Session.search_result, hbefore.2] at h
    exact Session.length_le_of_searchAtMost text h
  · intro h
    rw [← hbefore.2] at h
    obtain ⟨hresult, hafter⟩ := Session.search_of_blank h now
    exact ⟨hresult, _, hafter⟩

/-- Three files are recorded, of which the second one is not stored and the third one not analyzed.
    There is a search before the database is closed, and there are two after it. -/
def Session.mishaps (now : Instant) : List Incident :=
  let fails (step : Tables.UpsertStep) : Option StorageFault :=
    if step = .commit then some .timedOut else none
  [.call (.record (fun _ => none) "a.rs" "5%" now), .call (.record fails "b.rs" "5%" now),
    .call (.allow .findNodes (some 0)), .call (.record (fun _ => none) "c.rs" "6%" now),
    .call (.search "%" none now),
    .disturbance (Session.ofTables .fresh).workspace.close .fresh,
    .call (.search "%" none now), .call (.search "" (some 7) now)]

/-- The audit trail is emptied between an analysis and these mishaps. -/
theorem events_live_mishaps :
    .call .clearEvents ∉ Session.mishaps .epoch ∧
      ((Session.start ⟨⟨":memory:", 1⟩, ⟨2⟩, ⟨1⟩⟩ (Session.ofTables .fresh).workspace).live
        ([.call (.analyzeImpact "a.rs" none .epoch)] ++
          .call .clearEvents :: Session.mishaps .epoch)).events =
        [.fileRecorded "file:a.rs" "a.rs" .epoch, .impactAnalyzed "a.rs" 2 1 .epoch,
          .fileRecorded "file:c.rs" "c.rs" .epoch, .searchPerformed "%" 1 1 .epoch,
          .searchPerformed "" 7 0 .epoch] := by
  have hmishaps : .call .clearEvents ∉ Session.mishaps .epoch := by simp [Session.mishaps]
  exact ⟨hmishaps, (events_live _ _ _ hmishaps).2.1.trans (by decide +kernel)⟩

end Ripple
