import Ripple.Session.Operation
import Ripple.Proofs.Impact.Related
import Ripple.Proofs.Store.Rows

/-!
# Sessions that serve tables

What an action gives (`Action.result`) and the session that it leaves (`Action.after`).

A session serves some tables if its database is open and holds them, and if its gate
refuses nothing (`Session.Serves`). An action answers by such tables if its result depends
on them alone and if it leaves them as they are (`Action.Answers`). Reads do, and so does
what is made of reads: an analysis in a session is one of the tables
(`Session.analyze_answers`).
-/

namespace Ripple

namespace Action

variable {α β : Type}

/-- What an action gives. -/
def result (a : Action α) (s : Session) : Except GraphError α := (a.run.run s).1

/-- The session after an action. -/
def after (a : Action α) (s : Session) : Session := (a.run.run s).2

theorem run_bind (a : Action α) (f : α → Action β) (s : Session) :
    (a >>= f).run.run s = match a.result s with
      | .ok value => (f value).run.run (a.after s)
      | .error e => (.error e, a.after s) := by
  simp only [result, after, ExceptT.run, StateT.run, bind, ExceptT.bind, ExceptT.mk, StateT.bind,
    ExceptT.bindCont]
  rcases a s with ⟨_ | _, _⟩ <;> rfl

/-- What follows an action that succeeds goes on from its value and its session. -/
theorem bind_of_ok {a : Action α} {s : Session} {value : α} (h : a.result s = .ok value)
    (f : α → Action β) :
    (a >>= f).result s = (f value).result (a.after s) ∧
      (a >>= f).after s = (f value).after (a.after s) := by
  have hrun := run_bind a f s
  rw [h] at hrun
  exact ⟨congrArg Prod.fst hrun, congrArg Prod.snd hrun⟩

/-- Nothing follows an action that fails. -/
theorem bind_of_error {a : Action α} {s : Session} {e : GraphError} (h : a.result s = .error e)
    (f : α → Action β) :
    (a >>= f).result s = .error e ∧ (a >>= f).after s = a.after s := by
  have hrun := run_bind a f s
  rw [h] at hrun
  exact ⟨congrArg Prod.fst hrun, congrArg Prod.snd hrun⟩

/-- An action that begins with a look at the session goes on with the session. -/
theorem get_bind (f : Session → Action β) (s : Session) :
    ((get : Action Session) >>= f).result s = (f s).result s ∧
      ((get : Action Session) >>= f).after s = (f s).after s :=
  bind_of_ok (a := get) (s := s) rfl f

end Action

/-- An open database that holds some tables, behind a gate that refuses nothing. -/
structure Session.Serves (s : Session) (t : Tables) : Prop where
  tables : s.workspace.tables? = some t
  passes : ∀ method, s.gate.allowance method = none

/-- A session of a database that lies nowhere and holds some tables. -/
def Session.ofTables (t : Tables) : Session where
  workspace := ⟨.empty, ⟨.inMemory, .memory t, true⟩⟩
  gate := .fresh
  defaultDepth := ImpactConfig.defaultDepth
  defaultLimit := SearchConfig.defaultResults
  engine := .standard
  events := []

theorem Session.ofTables_serves (t : Tables) : (ofTables t).Serves t := ⟨rfl, fun _ => rfl⟩

/-- An action whose result depends on the tables alone, and which leaves them as they are. -/
def Action.Answers {α : Type} (a : Action α) (t : Tables) (r : Except GraphError α) : Prop :=
  ∀ s : Session, s.Serves t → a.result s = r ∧ (a.after s).Serves t

theorem Action.composes_answers (t : Tables) :
    Impact.Composes fun α (a : Action α) (r : Except GraphError α) => a.Answers t r where
  pure _ _ hs := ⟨rfl, hs⟩
  bind {_ _ _ r f _} ha hf s hs := by
    obtain ⟨hresult, hserves⟩ := ha s hs
    cases hr : r with
    | error e =>
      obtain ⟨h₁, h₂⟩ := bind_of_error (hresult.trans hr) f
      rw [h₁, h₂]
      exact ⟨rfl, hserves⟩
    | ok value =>
      obtain ⟨h₁, h₂⟩ := bind_of_ok (hresult.trans hr) f
      rw [h₁, h₂]
      exact hf value _ hserves

namespace Session

variable {α : Type} {method : Method} {s : Session} {t : Tables}
  {f : Workspace → Workspace × Except GraphError α}

theorem request_run (method : Method) (f : Workspace → Workspace × Except GraphError α)
    (s : Session) :
    (request method f).run.run s = if (s.gate.pass method).2 then ((f s.workspace).2,
        { s with gate := (s.gate.pass method).1, workspace := (f s.workspace).1 })
      else (.error (.storage .closed), { s with gate := (s.gate.pass method).1 }) := rfl

/-- A request that the gate lets pass is made to the workspace. -/
theorem request_of_pass (h : (s.gate.pass method).2 = true) :
    (request method f).result s = (f s.workspace).2 ∧
      (request method f).after s =
        { s with gate := (s.gate.pass method).1, workspace := (f s.workspace).1 } := by
  have hrun := request_run method f s
  rw [if_pos h] at hrun
  exact ⟨congrArg Prod.fst hrun, congrArg Prod.snd hrun⟩

/-- A request that the gate refuses changes nothing but the gate. -/
theorem request_of_refusal (h : (s.gate.pass method).2 = false) :
    (request method f).result s = .error (.storage .closed) ∧
      (request method f).after s = { s with gate := (s.gate.pass method).1 } := by
  have hrun := request_run method f s
  rw [if_neg (by simp [h])] at hrun
  exact ⟨congrArg Prod.fst hrun, congrArg Prod.snd hrun⟩

/-- A query that the gate lets pass is answered by the tables. -/
theorem query_of_pass (h : s.workspace.tables? = some t) (hpass : (s.gate.pass method).2 = true)
    (f : Tables → Except GraphError α) : (query method f).result s = f t := by
  rw [query, (request_of_pass hpass).1]
  simp only [Workspace.read, Workspace.tables, h]
  rfl

/-- The value of a query is that of the tables. -/
theorem query_eq_ok (h : s.workspace.tables? = some t) {f : Tables → Except GraphError α}
    {value : α} (hvalue : (query method f).result s = .ok value) : f t = .ok value := by
  cases hpass : (s.gate.pass method).2 with
  | true => rw [← hvalue, query_of_pass h hpass]
  | false =>
    rw [query, (request_of_refusal hpass).1] at hvalue
    exact nomatch hvalue

/-- What succeeds in reading tables has read those of the database. -/
theorem exists_of_read {w : Workspace} {f : Tables → Except GraphError α} {value : α}
    (h : w.read f = .ok value) : ∃ t, w.tables? = some t ∧ f t = .ok value := by
  obtain ⟨t, ht, hvalue⟩ := bind_eq_ok.1 h
  refine ⟨t, ?_, hvalue⟩
  rw [Tables.fault, mapError_eq_ok, Workspace.tables] at ht
  cases htables : w.tables? with
  | none =>
    rw [htables] at ht
    cases ht
  | some t' =>
    rw [htables] at ht
    rw [Except.ok.inj ht]

/-- A query that succeeds has been answered by the tables of the database. -/
theorem exists_of_query {f : Tables → Except GraphError α} {value : α}
    (h : (query method f).result s = .ok value) :
    ∃ t, s.workspace.tables? = some t ∧ f t = .ok value := by
  cases hpass : (s.gate.pass method).2 with
  | true =>
    rw [query, (request_of_pass hpass).1] at h
    exact exists_of_read h
  | false =>
    rw [query, (request_of_refusal hpass).1] at h
    exact nomatch h

/-- A gate that refuses nothing lets every request pass and goes on refusing nothing. -/
theorem Serves.pass (hs : s.Serves t) (method : Method) :
    (s.gate.pass method).2 = true ∧ ∀ m, (s.gate.pass method).1.allowance m = none := by
  simp [Gate.pass, hs.passes]

/-- A request that changes nothing answers by the tables. -/
theorem query_answers (method : Method) (f : Tables → Except GraphError α) :
    (query method f).Answers t (f t) := by
  intro s hs
  obtain ⟨hpass, hgate⟩ := hs.pass method
  refine ⟨query_of_pass hs.tables hpass f, ?_⟩
  rw [query, (request_of_pass hpass).2]
  exact ⟨hs.tables, hgate⟩

/-! ## Analyses -/

theorem edgeCount_eq (h : s.workspace.tables? = some t) : s.edgeCount = t.edgeCount := by
  simp only [edgeCount, h, Tables.edgeCount]

theorem source_answers (t : Tables) :
    Impact.Source.Relates (fun α (a : Action α) (r : Except GraphError α) => a.Answers t r) source
      t.source where
  nodesAt path := query_answers .findNodes (·.nodesAt path)
  node? id := query_answers .getNode (·.node? id)
  edgesOf id := query_answers .getEdges (·.edgesOf id)

end Session

/-- An analysis of tables. -/
def Tables.analyze (t : Tables) (path : String) (depth : UInt32) : Except GraphError Report :=
  Impact.analyze t.source t.edgeCount path depth

/-- An analysis in a session is one of the tables that the session serves. -/
theorem Session.analyze_answers {t : Tables} (path : String) (depth : UInt32) :
    (Session.analyze path depth).Answers t (t.analyze path depth) := by
  intro s hs
  obtain ⟨hresult, hafter⟩ := Action.get_bind
    (fun s => Impact.analyze source s.edgeCount path depth) s
  have hanalyze : (Impact.analyze source s.edgeCount path depth).Answers t
      (t.analyze path depth) := by
    -- The fuel of the search is the number of edges that the session sees, which is the same.
    rw [edgeCount_eq hs.tables]
    exact (Action.composes_answers t).analyze (source_answers t) t.edgeCount path depth
  rw [Session.analyze, hresult, hafter]
  exact hanalyze s hs

end Ripple
