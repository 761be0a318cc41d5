import Ripple.Proofs.Session.Agreement
import Ripple.Proofs.Store.Opening
import Ripple.Proofs.Store.Reopening

/-!
# Sessions that are closed and opened again

A `Turn` is a call, or the database is closed and opened again, with some calls while it is
closed. `Session.answers` are the answers to the calls of some turns.

A closed database answers nothing and is changed by nothing (`Call.fails_of_closed`). A database
at a plain path that is opened again agrees with one that has never been closed
(`Session.Agrees.reopenWith`). So it cannot be told from the answers whether such a database has
been closed (`answers_of_reopenings`). At other paths a database can be in the way of itself
(`answers_of_reopenings_fails_slashes`).
-/

namespace Ripple

/-! ## Closed databases -/

/-- Whether a failure is that of a closed database. -/
def Failure.IsClosed : Failure → Prop
  | .graph e => e = .storage .closed
  | .setup e => StorageFault.closed.message ∈ e.message :: e.causes

theorem Failure.isClosed_during (activity : String) :
    (setup (.during activity .closed)).IsClosed :=
  List.mem_cons_of_mem _ List.mem_cons_self

/-- Whether a call asks the database. A search for nothing does not, nor does one with a limit of
    zero. -/
def Call.AsksStore (s : Session) : Call → Prop
  | searchAtMost text limit => text ≠ "" ∧ limit ≠ 0
  | search text limit _ => text ≠ "" ∧ limit.getD s.defaultLimit ≠ 0
  | clearEvents | allow _ _ => False
  | _ => True

/-- An action that fails as at a closed database, and changes nothing but the gate. -/
def Action.Fails {α : Type} (a : Action α) (s : Session) : Prop :=
  a.result s = .error (.storage .closed) ∧ ∃ gate, a.after s = { s with gate }

namespace Action.Fails

variable {α β : Type} {s : Session} {a : Action α}

theorem bind (ha : a.Fails s) (f : α → Action β) : (a >>= f).Fails s := by
  obtain ⟨hresult, hafter⟩ := ha
  rw [Fails, (bind_of_error hresult f).1, (bind_of_error hresult f).2]
  exact ⟨rfl, hafter⟩

theorem get_bind {f : Session → Action β} (hf : (f s).Fails s) :
    ((get : Action Session) >>= f).Fails s := by
  rw [Fails, (Action.get_bind f s).1, (Action.get_bind f s).2]
  exact hf

theorem answer (ha : a.Fails s) (f : α → Answer) :
    (∃ failure, Answer.ofGraph f (a.result s) = .error failure ∧ failure.IsClosed) ∧
      ∃ gate, a.after s = { s with gate } := by
  obtain ⟨hresult, hafter⟩ := ha
  exact ⟨⟨.graph (.storage .closed), by rw [hresult]; rfl, rfl⟩, hafter⟩

end Action.Fails

namespace Session

variable {α : Type} {s : Session}

/-- A request fails at the gate or at the closed database. -/
theorem request_fails {method : Method} {f : Workspace → Workspace × Except GraphError α}
    (hf : f s.workspace = (s.workspace, .error (.storage .closed))) :
    (request method f).Fails s := by
  cases hpass : (s.gate.pass method).2 with
  | true =>
    obtain ⟨hresult, hafter⟩ := request_of_pass (f := f) hpass
    rw [hf] at hresult hafter
    exact ⟨hresult, _, hafter⟩
  | false =>
    obtain ⟨hresult, hafter⟩ := request_of_refusal (f := f) hpass
    exact ⟨hresult, _, hafter⟩

theorem tables_of_closed (hs : s.workspace.database.isOpen = false) :
    s.workspace.tables = .error .closed := by
  simp [Workspace.tables, Workspace.tables?, hs]

theorem query_fails (hs : s.workspace.database.isOpen = false) (method : Method)
    (f : Tables → Except GraphError α) : (query method f).Fails s := by
  refine request_fails ?_
  rw [Workspace.read, tables_of_closed hs]
  rfl

theorem upsertNodeUnless_fails (hs : s.workspace.database.isOpen = false)
    (disturbed : Tables.UpsertStep → Option StorageFault) (node : Node) (now : Instant) :
    (upsertNodeUnless disturbed node now).Fails s := by
  refine request_fails ?_
  rw [Workspace.write, tables_of_closed hs]
  rfl

theorem addEdge_fails (hs : s.workspace.database.isOpen = false) (edge : NewEdge) :
    (addEdge edge).Fails s := by
  refine request_fails ?_
  rw [Workspace.change, tables_of_closed hs]
  rfl

theorem analyze_fails (hs : s.workspace.database.isOpen = false) (path : String) (depth : UInt32) :
    (analyze path depth).Fails s :=
  .get_bind ((query_fails hs _ _).bind _)

theorem find_fails (hs : s.workspace.database.isOpen = false) (text : String) (limit : UInt64) :
    (find text limit).Fails s := .get_bind (query_fails hs _ _)

theorem analyzeImpact_fails (hs : s.workspace.database.isOpen = false) (path : String)
    (depth : Option UInt32) (now : Instant) : (analyzeImpact path depth now).Fails s :=
  .get_bind ((analyze_fails hs _ _).bind _)

theorem searchAtMost_fails (hs : s.workspace.database.isOpen = false) {text : String}
    {limit : UInt64} (hasks : text ≠ "" ∧ limit ≠ 0) : (searchAtMost text limit).Fails s := by
  rw [searchAtMost, if_neg (not_or.2 hasks)]
  exact find_fails hs _ _

end Session

namespace Call

variable {s : Session}

/-- A call that asks a closed database fails, and changes nothing but the gate. -/
theorem fails_of_closed (hs : s.workspace.database.isOpen = false) {call : Call}
    (hasks : call.AsksStore s) :
    (∃ failure, call.answer s = .error failure ∧ failure.IsClosed) ∧
      ∃ gate, call.after s = { s with gate } := by
  have hsetUp {α : Type} (f : Tables → Tables × Except StorageFault α) :
      s.workspace.setUp f = (s.workspace, .error .closed) := by
    rw [Workspace.setUp]
    split <;> simp [Workspace.write, Session.tables_of_closed hs, Except.bind]
  cases call with
  | upsert disturbed node now =>
    exact (Session.upsertNodeUnless_fails hs disturbed node now).answer _
  | record disturbed path content now =>
    exact ((Session.upsertNodeUnless_fails hs disturbed _ now).bind _).answer _
  | addEdge edge => exact (Session.addEdge_fails hs edge).answer _
  | getNode id => exact (Session.query_fails hs _ _).answer _
  | nodesAt path => exact (Session.query_fails hs _ _).answer _
  | edgesOf id => exact (Session.query_fails hs _ _).answer _
  | stats => exact (Session.query_fails hs _ _).answer _
  | analyze path depth => exact (Session.analyze_fails hs path depth).answer _
  | analyzeImpact path depth now => exact (Session.analyzeImpact_fails hs path depth now).answer _
  | find text limit => exact (Session.find_fails hs _ _).answer _
  | searchAtMost text limit => exact (Session.searchAtMost_fails hs hasks).answer _
  | search text limit now =>
    have hsearch : (Session.search text limit now).Fails s :=
      .get_bind ((Session.searchAtMost_fails hs hasks).bind _)
    exact hsearch.answer _
  | searchDirectly text limit =>
    have hsearch : (Session.searchDirectly text limit).Fails s := by
      refine ⟨?_, s.gate, rfl⟩
      change s.workspace.read _ = _
      rw [Workspace.read, Session.tables_of_closed hs]
      rfl
    exact hsearch.answer _
  | clearEvents => exact hasks.elim
  | migrate =>
    simp only [answer, after, Workspace.migrate, hsetUp]
    exact ⟨⟨_, rfl, Failure.isClosed_during _⟩, s.gate, rfl⟩
  | schemaStatus =>
    simp only [answer, after, Workspace.schemaStatus, hsetUp]
    exact ⟨⟨_, rfl, Failure.isClosed_during _⟩, s.gate, rfl⟩
  | needsMigration =>
    simp only [answer, after, Workspace.needsMigration, hsetUp]
    exact ⟨⟨_, rfl, List.mem_cons_self⟩, s.gate, rfl⟩
  | allow method allowance => exact hasks.elim

/-- At a closed database a call changes nothing but the gate and the audit trail. -/
theorem after_of_closed (hs : s.workspace.database.isOpen = false) (call : Call) :
    ∃ gate events, call.after s = { s with gate, events } := by
  by_cases hasks : call.AsksStore s
  · obtain ⟨-, gate, hafter⟩ := fails_of_closed hs hasks
    exact ⟨gate, s.events, hafter⟩
  · cases call with
    | searchAtMost text limit =>
      refine ⟨s.gate, s.events, ?_⟩
      rw [after, Session.searchAtMost, if_pos (or_iff_not_and_not.2 hasks)]
      rfl
    | search text limit now =>
      exact ⟨s.gate, _, (Session.search_of_blank (or_iff_not_and_not.2 hasks) now).2⟩
    | clearEvents => exact ⟨s.gate, [], rfl⟩
    | allow method allowance => exact ⟨s.gate.allow method allowance, s.events, rfl⟩
    | _ => exact absurd trivial hasks

end Call

/-- Calls change neither a closed database nor the disk. -/
theorem Session.run_of_closed {s : Session} (hs : s.workspace.database.isOpen = false)
    (calls : List Call) : ∃ gate events, s.run calls = { s with gate, events } := by
  induction calls generalizing s with
  | nil => exact ⟨s.gate, s.events, rfl⟩
  | cons call calls ih =>
    obtain ⟨gate, events, hcall⟩ := call.after_of_closed hs
    obtain ⟨gate', events', hcalls⟩ := ih (s := call.after s) (by rw [hcall]; exact hs)
    exact ⟨gate', events', hcalls.trans (by rw [hcall])⟩

/-! ## In a file -/

theorem Session.request_rewritesWith {α : Type} {new : Option NodeRow} (method : Method)
    {f : Workspace → Workspace × Except GraphError α}
    (hf : ∀ w : Workspace, w.RewritesWith new (f w).1) (s : Session) :
    s.workspace.RewritesWith new ((request method f).after s).workspace := by
  cases hpass : (s.gate.pass method).2 with
  | true =>
    rw [(request_of_pass hpass).2]
    exact hf _
  | false =>
    rw [(request_of_refusal hpass).2]
    exact .inl rfl

/-- The row of the node that a call is to store. -/
def Call.row? : Call → Option NodeRow
  | upsert _ node now => some (.ofNode node now)
  | record _ path content now => some (.ofNode (.file path content now) now)
  | _ => none

/-- A call writes the tables of the database, if it changes anything but the session, and adds no
    node but the one that it is to store. -/
theorem Call.rewritesWith (s : Session) (call : Call) :
    s.workspace.RewritesWith call.row? (call.after s).workspace := by
  have hread {α : Type} {a : Action α} (ha : a.Keeps) :
      s.workspace.RewritesWith none (a.after s).workspace := .inl (ha s)
  have hupsert (disturbed : Tables.UpsertStep → Option StorageFault) (node : Node)
      (now : Instant) : s.workspace.RewritesWith (some (.ofNode node now))
        ((Session.upsertNodeUnless disturbed node now).after s).workspace :=
    Session.request_rewritesWith _ (fun w => w.rewritesWith_write fun t row hrow =>
      (Tables.mem_nodes_upsertUnless hrow).imp_right fun h => h ▸ rfl) s
  have hsetup {α : Type} (f : Tables → Tables × Except StorageFault α)
      (hf : ∀ t, (f t).1.rows.nodes = t.rows.nodes) :
      s.workspace.RewritesWith none (s.workspace.setUp f).1 :=
    s.workspace.rewritesWith_setUp fun t row hrow => .inl (hf t ▸ hrow)
  cases call with
  | upsert disturbed node now => exact hupsert disturbed node now
  | record disturbed path content now =>
    rw [after, Session.recordFileUnless_workspace]
    exact hupsert disturbed _ now
  | addEdge edge =>
    exact Session.request_rewritesWith _ (fun w => w.rewritesWith_change fun _ _ _ =>
      Tables.nodes_addEdge) s
  | getNode id => exact hread (Session.query_keeps _ _)
  | nodesAt path => exact hread (Session.query_keeps _ _)
  | edgesOf id => exact hread (Session.query_keeps _ _)
  | stats => exact hread (Session.query_keeps _ _)
  | analyze path depth => exact hread (Session.analyze_keeps _ _)
  | analyzeImpact path depth now => exact hread (Session.analyzeImpact_keeps _ _ _)
  | find text limit => exact hread (Session.find_keeps _ _)
  | searchAtMost text limit => exact hread (Session.searchAtMost_keeps _ _)
  | search text limit now => exact hread (Session.search_keeps _ _ _)
  | searchDirectly text limit => exact .inl rfl
  | clearEvents => exact .inl rfl
  | migrate => exact hsetup Tables.migrate fun t => congrArg Rows.nodes t.rows_migrate
  | schemaStatus => exact hsetup Tables.schemaStatus fun _ => rfl
  | needsMigration => exact hsetup Tables.schemaStatus fun _ => rfl
  | allow method allowance => exact .inl rfl

/-- A call writes the tables of the database, if it changes anything but the session. -/
theorem Call.rewrites (s : Session) (call : Call) :
    s.workspace.Rewrites (call.after s).workspace := (call.rewritesWith s).rewrites

/-! ## Turns -/

/-- What can happen to a session of a database that may be closed and opened again. -/
inductive Turn where
  /-- A call. -/
  | call (call : Call)
  /-- The database is closed, some calls are made, and the database is opened again at its path,
      where its schema is brought up to date or not. -/
  | reopen (meanwhile : List Call) (migrates : Bool)

/-- The calls of some turns to the open database. -/
def Turn.calls : List Turn → List Call
  | [] => []
  | .call made :: turns => made :: calls turns
  | .reopen _ _ :: turns => calls turns

namespace Session

/-- Opens the database again, where its schema is brought up to date or not. -/
def reopenWith (s : Session) (migrates : Bool) : Session × Except SetupError Unit :=
  ({ s with workspace.database.options.autoMigrate := migrates } : Session).reopen

/-- The answers to the calls of some turns, if the database can be opened again each time. -/
def answers (s : Session) : List Turn → Except SetupError (List (Except Failure Answer))
  | [] => .ok []
  | .call call :: turns => ((call.after s).answers turns).map (call.answer s :: ·)
  | .reopen meanwhile migrates :: turns =>
    match (s.close.run meanwhile).reopenWith migrates with
    | (_, .error e) => .error e
    | (s, .ok ()) => s.answers turns

variable {s s' : Session} {place : Place}

theorem answers_call (call : Call) (turns : List Turn) :
    s.answers (.call call :: turns) =
      ((call.after s).answers turns).map (call.answer s :: ·) := rfl

theorem answers_reopen {s₁ : Session} {meanwhile : List Call} {migrates : Bool}
    (h : (s.close.run meanwhile).reopenWith migrates = (s₁, .ok ())) (turns : List Turn) :
    s.answers (.reopen meanwhile migrates :: turns) = s₁.answers turns := by
  have hanswers : s.answers (.reopen meanwhile migrates :: turns) =
      match (s.close.run meanwhile).reopenWith migrates with
      | (_, .error e) => .error e
      | (s, .ok ()) => s.answers turns := rfl
  rw [hanswers, h]

/-- A database in a file can be closed and opened again, and then it agrees with one that has not
    been closed. -/
theorem Agrees.reopenWith (hs : s.Agrees s') (hrests : s.workspace.Rests place)
    (meanwhile : List Call) (migrates : Bool) :
    ∃ s₁, (s.close.run meanwhile).reopenWith migrates = (s₁, .ok ()) ∧ s₁.Agrees s' ∧
      s₁.workspace.Rests place := by
  obtain ⟨⟨t, t', ht, ht', hredates⟩, hdepth, hlimit, hengine⟩ := hs
  obtain ⟨hclosed, hcontents⟩ := hrests.close
  obtain ⟨gate, events, hmeanwhile⟩ := s.close.run_of_closed s.workspace.isOpen_close meanwhile
  have ht : s.workspace.contents = t := Workspace.contents_of_tables? ht.tables
  have hcurrent : s.workspace.close.contents.IsCurrent := by
    rw [hcontents, ht]
    exact hredates.left
  obtain ⟨w, hreopen, hrests, htables⟩ := (hclosed.withAutoMigrate migrates).reopen hcurrent
  refine ⟨{ s with workspace := w, gate := .fresh, events := [] }, ?_, ?_, hrests⟩
  · rw [hmeanwhile, Session.reopenWith, Session.reopen]
    simp only [Session.close, hreopen]
  · have hserves : w.tables? = some t := by
      rw [htables, ← ht, ← hcontents]
      rfl
    exact ⟨⟨t, t', ⟨hserves, fun _ => rfl⟩, ht', hredates⟩, hdepth, hlimit, hengine⟩

/-- The answers to some turns are those to their calls at other times, but for timestamps. -/
theorem Agrees.answers (hs : s.Agrees s') (hrests : s.workspace.Rests place) {turns : List Turn}
    {calls : List Call} (hcalls : List.Forall₂ Call.Redates (Turn.calls turns) calls)
    (hgate : ∀ call ∈ Turn.calls turns, ∀ method allowance, call ≠ .allow method allowance) :
    ∃ answers answers', s.answers turns = .ok answers ∧
      s'.answers (calls.map .call) = .ok answers' ∧
      answers.map (Except.map Answer.undated) = answers'.map (Except.map Answer.undated) := by
  induction turns generalizing s s' calls with
  | nil =>
    obtain rfl := List.forall₂_nil_left_iff.1 hcalls
    exact ⟨[], [], rfl, rfl, rfl⟩
  | cons turn turns ih =>
    cases turn with
    | call call =>
      rw [Turn.calls] at hcalls hgate
      obtain ⟨call', calls', hcall, hrest, rfl⟩ := List.forall₂_cons_left_iff.1 hcalls
      obtain ⟨hanswer, hafter⟩ := hcall.agrees (List.forall_mem_cons.1 hgate).1 hs
      obtain ⟨answers, answers', hanswers, hanswers', hsame⟩ :=
        ih hafter (hrests.of_rewrites (call.rewrites s)) hrest (List.forall_mem_cons.1 hgate).2
      refine ⟨call.answer s :: answers, call'.answer s' :: answers', ?_, ?_, ?_⟩
      · rw [answers_call, hanswers]
        rfl
      · rw [List.map_cons, answers_call, hanswers']
        rfl
      · rw [List.map_cons, List.map_cons, hanswer, hsame]
    | reopen meanwhile migrates =>
      rw [Turn.calls] at hcalls hgate
      obtain ⟨s₁, hreopen, hs₁, hrests⟩ := hs.reopenWith hrests meanwhile migrates
      obtain ⟨answers, answers', hanswers, hanswers', hsame⟩ := ih hs₁ hrests hcalls hgate
      exact ⟨answers, answers', (answers_reopen hreopen turns).trans hanswers, hanswers', hsame⟩

end Session

/-- Let a database be opened at a plain path, in a file, with a schema that is up to date. However
    often it is closed and opened again between calls, whether its schema is then brought up to date
    or not and whatever is asked of it while it is closed, it can be opened each time, and the
    answers are those to the same calls without this, but for timestamps. A call that asks a closed
    database fails and changes nothing but the gate. -/
theorem answers_of_reopenings {options : DatabaseOptions} (hplain : Location.IsPlain options.path)
    {disk disk' : Disk Tables} {w : Workspace} {place : Place} {t : Tables}
    (hopen : Workspace.openWith options disk = (disk', .ok w))
    (hfile : w.database.backing = .file place) (ht : w.tables? = some t) (hcurrent : t.IsCurrent)
    (config : Config) {turns : List Turn} {calls : List Call}
    (hcalls : List.Forall₂ Call.Redates (Turn.calls turns) calls)
    (hgate : ∀ call ∈ Turn.calls turns, ∀ method allowance, call ≠ .allow method allowance) :
    (∃ answers answers', (Session.start config w).answers turns = .ok answers ∧
      (Session.start config w).answers (calls.map .call) = .ok answers' ∧
      answers.map (Except.map Answer.undated) = answers'.map (Except.map Answer.undated)) ∧
    ∀ s : Session, s.workspace.database.isOpen = false →
      (∃ e, s.workspace.healthCheck = .error e ∧ (Failure.setup e).IsClosed) ∧
      ∀ call : Call, call.AsksStore s →
        (∃ failure, call.answer s = .error failure ∧ failure.IsClosed) ∧
          ∃ gate, call.after s = { s with gate } := by
  have hagrees : (Session.start config w).Agrees (Session.start config w) :=
    ⟨⟨t, t, ⟨ht, fun _ => rfl⟩, ⟨ht, fun _ => rfl⟩, .refl hcurrent⟩, rfl, rfl, rfl⟩
  have hrests : (Session.start config w).workspace.Rests place :=
    Workspace.rests_of_openWith hplain hopen hfile
  refine ⟨hagrees.answers hrests hcalls hgate, fun s hs =>
    ⟨?_, fun call hasks => Call.fails_of_closed hs hasks⟩⟩
  have hhealth : s.workspace.healthCheck =
      .error (.during "Database health check failed" .closed) := by
    rw [Workspace.healthCheck, Session.tables_of_closed hs]
    rfl
  exact ⟨_, hhealth, Failure.isClosed_during _⟩

/-- The entries of a new database, the one that was made last first. -/
def Disk.newEntries (place : Place) : List (Place × Entry Tables) :=
  [(place, .database .fresh), (Companion.index.place place, .companion),
    (Companion.log.place place, .companion)]

/-- A database that has just been made in a file, in a directory that has been made for it. -/
def Workspace.made : Workspace :=
  let place : Place := ["work".toList, "db".toList, "graph.db".toList]
  { disk := ⟨["work".toList], Disk.newEntries place ++ [(place.dropLast, .directory)]⟩
    database := ⟨.atPath "db/graph.db", .file place, true⟩ }

theorem Workspace.openWith_made :
    openWith (.atPath "db/graph.db") .empty = (made.disk, .ok made) := by
  have hlocation : Location.ofPath "db/graph.db" = .ok (.file "db/graph.db") := by decide +kernel
  have hprepare : prepareDirectory "db/graph.db" .empty =
      (⟨["work".toList], [(["work".toList, "db".toList], .directory)]⟩, .ok ()) := by rfl
  simp only [openWith, openPlain, DatabaseOptions.atPath, hprepare, hlocation]
  rfl

/-- A configuration with that database. -/
def Config.made : Config where
  storage := ⟨"db/graph.db", DatabaseOptions.defaultConnections⟩
  impact := ⟨ImpactConfig.defaultDepth⟩
  search := ⟨SearchConfig.defaultResults⟩

/-- Two nodes and an edge are stored and searched for, and before each of these the database is
    closed and opened again. While it is closed, nothing can be stored. -/
def Session.restarts (now : Instant) : List Turn :=
  let node (id : String) : Node := ⟨id, "file", id, some "a.rs", some "red", none, .epoch⟩
  [.reopen [] true, .call (.upsert (fun _ => none) (node "a") now),
    .reopen [.upsert (fun _ => none) (node "c") now] false,
    .call (.upsert (fun _ => none) (node "b") now),
    .reopen [.getNode "a"] true, .call (.addEdge ⟨"a", "b", "uses", none⟩),
    .reopen [.migrate] false, .call (.searchDirectly "red" 5), .call (.analyze "a.rs" 1)]

/-- The same calls are made a day later without closing the database. -/
theorem answers_of_reopenings_restarts :
    Location.IsPlain (DatabaseOptions.atPath "db/graph.db").path ∧
    Workspace.openWith (.atPath "db/graph.db") .empty = (Workspace.made.disk, .ok .made) ∧
      ∃ answers answers',
        (Session.start .made .made).answers (Session.restarts .epoch) = .ok answers ∧
        (Session.start .made .made).answers
          ((Turn.calls (Session.restarts ⟨86400, 0, by decide⟩)).map .call) = .ok answers' ∧
        answers.map (Except.map Answer.undated) = answers'.map (Except.map Answer.undated) := by
  have hyear : 0 ≤ Instant.epoch.date.year ∧ Instant.epoch.date.year ≤ 9999 := by decide
  have hlater (now : Instant) (hnow : now = ⟨86400, 0, by decide⟩) :
      0 ≤ now.date.year ∧ now.date.year ≤ 9999 := by
    subst hnow
    decide
  have hcalls : List.Forall₂ Call.Redates (Turn.calls (Session.restarts .epoch))
      (Turn.calls (Session.restarts ⟨86400, 0, by decide⟩)) :=
    .cons (.upsert _ _ _ _ _ rfl hyear (hlater _ rfl))
      (.cons (.upsert _ _ _ _ _ rfl hyear (hlater _ rfl))
        (.cons (.refl _) (.cons (.refl _) (.cons (.refl _) .nil))))
  have hplain : Location.IsPlain (DatabaseOptions.atPath "db/graph.db").path :=
    ⟨by decide, by decide, by decide, Location.percentDecode_bytesOf (by decide), by decide⟩
  exact ⟨hplain, Workspace.openWith_made, (answers_of_reopenings hplain Workspace.openWith_made rfl
    rfl .fresh .made hcalls (by simp [Session.restarts, Turn.calls])).1⟩

/-- A database at a path that is not plain: the directories that are made for it lie at the root,
    and it lies in the working directory, under the name of the first of them. -/
def Workspace.crossed : Workspace :=
  let place : Place := ["work".toList, "usr".toList]
  { disk := ⟨["work".toList], Disk.newEntries place ++
      [(["usr".toList, "bin".toList], .directory), (["usr".toList], .directory)]⟩
    database :=
      ⟨{ DatabaseOptions.atPath "//usr/bin/.." with maxConnections := 1 }, .file place, true⟩ }

/-- The file is in the way of its own path. -/
theorem Workspace.openWith_crossed (migrates : Bool) :
    openWith { crossed.database.options with autoMigrate := migrates } crossed.close.disk =
      (crossed.close.disk, .error (.during "Failed to connect to database: \"//usr/bin/..\""
        (.engine .cannotOpen))) := by
  have hlocation : Location.ofPath "//usr/bin/.." = .ok (.file "usr/bin/..") := by decide +kernel
  have hprepare : prepareDirectory "//usr/bin/.." crossed.close.disk =
      (crossed.close.disk, .ok ()) := by rfl
  have hpath : crossed.database.options.path = "//usr/bin/.." := rfl
  simp only [openWith, openPlain, hpath, hprepare, hlocation]
  rfl

theorem Workspace.reopen_crossed (migrates : Bool) :
    ∃ w, ({ crossed.close with database.options.autoMigrate := migrates } : Workspace).reopen =
      (w, .error (.during "Failed to connect to database: \"//usr/bin/..\""
        (.engine .cannotOpen))) := by
  rw [reopen]
  split
  · rename_i disk e hopen
    obtain ⟨-, he⟩ := Prod.mk.inj (hopen.symm.trans (openWith_crossed migrates))
    exact ⟨_, by rw [Except.error.inj he]⟩
  · rename_i hopen
    cases (Prod.mk.inj (hopen.symm.trans (openWith_crossed migrates))).2

/-- Of a path that begins with two slashes, these are dropped with the scheme. Then it can lead
    through the place of the database itself, and not be followed when there is a file: the database
    cannot be opened again, whether its schema is to be brought up to date or not. -/
theorem answers_of_reopenings_fails_slashes :
    (Workspace.crossed.database.options.path.toList.all fun c =>
      c.isAlphanum || c ∈ ['.', '_', '-', '/']) ∧
    Workspace.openWith Workspace.crossed.database.options .empty =
      (Workspace.crossed.disk, .ok .crossed) ∧
    Workspace.crossed.tables? = some .fresh ∧
    (Session.start .made .crossed).answers [.call (.getNode "a")] = .ok [.ok (.node none)] ∧
    ∀ migrates, (Session.start .made .crossed).answers
        [.reopen [] migrates, .call (.getNode "a")] =
      .error (.during "Failed to connect to database: \"//usr/bin/..\"" (.engine .cannotOpen)) := by
  refine ⟨by decide, ?_, rfl, rfl, fun migrates => ?_⟩
  · have hlocation : Location.ofPath "//usr/bin/.." = .ok (.file "usr/bin/..") := by decide +kernel
    have hprepare : Workspace.prepareDirectory "//usr/bin/.." .empty = (⟨["work".toList],
        [(["usr".toList, "bin".toList], .directory), (["usr".toList], .directory)]⟩, .ok ()) := by
      rfl
    simp only [Workspace.crossed, DatabaseOptions.atPath, Workspace.openWith, Workspace.openPlain,
      hprepare, hlocation]
    rfl
  · obtain ⟨w, hreopen⟩ := Workspace.reopen_crossed migrates
    have hworkspace : (((Session.start .made .crossed).close.run []).workspace) =
        Workspace.crossed.close := rfl
    simp only [Session.answers, Session.reopenWith, Session.reopen, hworkspace, hreopen]

end Ripple
