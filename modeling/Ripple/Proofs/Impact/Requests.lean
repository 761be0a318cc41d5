import Ripple.Proofs.Impact.Reach
import Ripple.Proofs.Impact.Related

/-!
# What an analysis asks of the store

The search of an analysis is a loop that takes entries from a queue until none is left.
`Walk.Loop` is this loop with no bound on its length, and a `Walk.Visit` is an entry that it
takes, with the requests that it makes for it. The loop ends whatever the tables hold, as
each visit lowers `Walk.budget` (`Walk.exists_loop`), and no request is made twice, as each
marks an identifier that had not been visited (`Walk.Loop.nodup_requests`). An analysis is the
loop from the nodes of its file, and makes its requests (`exists_loop_nodup_requests`).

Requests are seen by a source that puts each of them on a record (`Source.recorded`). The
same requests pass the gate of a session, which counts them (`Action.Makes`).
-/

namespace Ripple.Impact

/-- A request to the source of a search. -/
inductive Request where
  /-- The nodes of a file are asked for. -/
  | file (path : String)
  /-- The node of an identifier is asked for. -/
  | node (id : String)
  /-- The edges of a node are asked for. -/
  | edges (id : String)
deriving DecidableEq, Repr

/-- What can fail, and keeps a record of the requests that have been made. -/
abbrev Recording (ε : Type) := ExceptT ε (StateM (List Request))

variable {ε : Type}

/-- The answer to a request, which is put on the record whatever the answer is. -/
def Request.answered {α : Type} (request : Request) (answer : Except ε α) : Recording ε α :=
  fun record => (answer, record ++ [request])

/-- A source that keeps a record of what it is asked for. -/
def Source.recorded (source : Source (Except ε)) : Source (Recording ε) where
  nodesAt path := (Request.file path).answered (source.nodesAt path)
  node? id := (Request.node id).answered (source.node? id)
  edgesOf id := (Request.edges id).answered (source.edgesOf id)

theorem Recording.run_bind {α β : Type} (a : Recording ε α) (f : α → Recording ε β)
    (record : List Request) :
    (a >>= f).run.run record = match a.run.run record with
      | (.ok value, record) => (f value).run.run record
      | (.error e, record) => (.error e, record) := by
  simp only [ExceptT.run_bind, StateT.run_bind]
  rcases a.run.run record with ⟨_ | _, _⟩ <;> rfl

namespace Walk

variable {source : Source (Except ε)} {g : Graph} {depth level : UInt32} {id : String}
  {w w' : Walk}

/-! ## Visits -/

/-- What a visit asks for. Nothing is asked about an identifier that has been visited, and
    the edges only of a node that is stored and that the walk leaves. -/
def asked (source : Source (Except ε)) (depth : UInt32) (id : String) (level : UInt32)
    (w : Walk) : List Request :=
  if level > depth ∨ id ∈ w.visited then []
  else match source.node? id with
    | .ok (some _) => if level = depth then [.node id] else [.node id, .edges id]
    | _ => [.node id]

/-- On the record of a visit is what it asks for, also when it fails. -/
theorem visit_recorded (source : Source (Except ε)) (depth : UInt32) (id : String)
    (level : UInt32) (w : Walk) (record : List Request) :
    (visit source.recorded depth id level w).run.run record =
      (visit source depth id level w, record ++ asked source depth id level w) := by
  have hnode : (source.recorded.node? id).run.run record =
      (source.node? id, record ++ [.node id]) := rfl
  have hedges (record : List Request) : (source.recorded.edgesOf id).run.run record =
      (source.edgesOf id, record ++ [.edges id]) := rfl
  rw [visit, visit, asked]
  split
  · rw [List.append_nil]
    rfl
  · rw [Recording.run_bind, hnode]
    cases source.node? id with
    | error e => rfl
    | ok node =>
      cases node with
      | none => rfl
      | some node =>
        by_cases hlast : level = depth
        · simp only [ok_bind, if_pos hlast]
          rfl
        · simp only [ok_bind, if_neg hlast]
          rw [Recording.run_bind, hedges]
          cases source.edgesOf id with
          | error e => simp
          | ok edges =>
            rw [List.append_assoc]
            rfl

/-- A visit with an empty record is a visit, and records what it asks for. -/
theorem visit_recorded_eq {outcome : Except ε Walk} {requests : List Request}
    (h : (visit source.recorded depth id level w).run.run [] = (outcome, requests)) :
    visit source depth id level w = outcome ∧ asked source depth id level w = requests := by
  rw [visit_recorded, List.nil_append] at h
  exact Prod.mk.inj h

theorem nodup_asked : (asked source depth id level w).Nodup := by
  rw [asked]
  split
  · exact .nil
  · split
    · split <;> simp
    · simp

theorem of_mem_asked {request : Request} (h : request ∈ asked source depth id level w) :
    id ∉ w.visited ∧ (request = .node id ∨
      request = .edges id ∧ level < depth ∧ ∃ node, source.node? id = .ok (some node)) := by
  rw [asked] at h
  split at h
  · cases h
  · rename_i hskip
    rw [not_or, UInt32.not_lt] at hskip
    refine ⟨hskip.2, ?_⟩
    split at h
    · rename_i node hnode
      split at h
      · exact .inl (List.mem_singleton.1 h)
      · rename_i hlast
        rcases List.mem_pair.1 h with rfl | rfl
        · exact .inl rfl
        · exact .inr ⟨rfl, UInt32.lt_of_le_of_ne hskip.1 hlast, node, hnode⟩
    · exact .inl (List.mem_singleton.1 h)

/-- Who has been visited stays so, and who is asked about has been visited afterwards. -/
theorem visited_of_visit (h : visit source depth id level w = .ok w') :
    w.visited ⊆ w'.visited ∧ (asked source depth id level w ≠ [] → id ∈ w'.visited) := by
  rw [visit] at h
  rw [asked]
  split at h
  · rename_i hskip
    obtain rfl := Except.ok.inj h
    exact ⟨List.Subset.refl _, fun hasked => absurd (if_pos hskip) hasked⟩
  · have hvisited : w'.visited = id :: w.visited := by
      obtain ⟨node, -, h⟩ := bind_eq_ok.1 h
      cases node with
      | none => exact Except.ok.inj h ▸ rfl
      | some node =>
        dsimp only at h
        rw [meet_eq] at h
        split at h
        · exact Except.ok.inj h ▸ rfl
        · obtain ⟨edges, -, h⟩ := bind_eq_ok.1 h
          exact Except.ok.inj h ▸ rfl
    rw [hvisited]
    exact ⟨List.subset_cons_self _ _, fun _ => List.mem_cons_self⟩

/-! ## The loop -/

/-- An entry that has been taken from the queue, and the requests that were made for it. -/
structure Visit where
  /-- The identifier. -/
  id : String
  /-- The number of hops with which it was queued. -/
  level : UInt32
  /-- The requests, in order. -/
  requests : List Request

/-- The entries that are taken from the queue, one after another until it is empty or a
    visit fails, and what comes of it. -/
inductive Loop (source : Source (Except ε)) (depth : UInt32) :
    Walk → List Visit → Except ε Walk → Prop
  /-- The queue is empty. -/
  | done {w : Walk} : w.queue = [] → Loop source depth w [] (.ok w)
  /-- The visit of the first entry fails. -/
  | fail {w : Walk} {id : String} {level : UInt32} {rest : List (String × UInt32)}
      {requests : List Request} {e : ε} : w.queue = (id, level) :: rest →
      (visit source.recorded depth id level { w with queue := rest }).run.run [] =
        (.error e, requests) →
      Loop source depth w [⟨id, level, requests⟩] (.error e)
  /-- The visit of the first entry succeeds, and the loop goes on. -/
  | next {w w' : Walk} {id : String} {level : UInt32} {rest : List (String × UInt32)}
      {requests : List Request} {visits : List Visit} {outcome : Except ε Walk} :
      w.queue = (id, level) :: rest →
      (visit source.recorded depth id level { w with queue := rest }).run.run [] =
        (.ok w', requests) →
      Loop source depth w' visits outcome →
      Loop source depth w (⟨id, level, requests⟩ :: visits) outcome

variable {visits : List Visit} {outcome : Except ε Walk}

/-- The loop ends, within the budget of the search. -/
theorem exists_loop (hs : source.Reads g) (depth : UInt32) (w : Walk) :
    ∃ visits outcome, Loop source depth w visits outcome ∧ visits.length ≤ budget g w := by
  induction hbudget : budget g w using Nat.strongRecOn generalizing w with
  | _ n ih =>
    subst hbudget
    cases hq : w.queue with
    | nil => exact ⟨[], .ok w, .done hq, Nat.zero_le _⟩
    | cons head rest =>
      obtain ⟨id, level⟩ := head
      have hvisit := visit_recorded source depth id level { w with queue := rest } []
      cases hnext : visit source depth id level { w with queue := rest } with
      | error e =>
        rw [hnext] at hvisit
        refine ⟨_, _, .fail hq hvisit, ?_⟩
        rw [budget, hq, List.length_singleton, List.length_cons]
        omega
      | ok next =>
        rw [hnext] at hvisit
        have hlt : budget g next < budget g w :=
          visit_eq_step hs hnext ▸ budget_step_lt hq depth
        obtain ⟨visits, outcome, hloop, hlength⟩ := ih _ hlt next rfl
        exact ⟨_, outcome, .next hq hvisit hloop, (Nat.succ_le_succ hlength).trans hlt⟩

/-- A search with enough steps does what the loop does, and records its requests. -/
theorem Loop.run_recorded (h : Loop source depth w visits outcome) {fuel : ℕ}
    (hfuel : visits.length ≤ fuel) (record : List Request) :
    (run source.recorded depth fuel w).run.run record =
      (outcome, record ++ visits.flatMap Visit.requests) := by
  induction h generalizing fuel record with
  | @done w hq =>
    have hrun : run source.recorded depth fuel w = pure w := by
      cases fuel with
      | zero => rfl
      | succ fuel => simp only [run, hq]
    rw [hrun, List.flatMap_nil, List.append_nil]
    rfl
  | fail hq hrecorded =>
    obtain ⟨hvisit, rfl⟩ := visit_recorded_eq hrecorded
    obtain ⟨fuel, rfl⟩ := Nat.exists_eq_add_of_le' hfuel
    simp only [List.length_singleton, run, hq, Recording.run_bind, visit_recorded, hvisit,
      List.flatMap_singleton]
  | next hq hrecorded _ ih =>
    obtain ⟨hvisit, rfl⟩ := visit_recorded_eq hrecorded
    obtain ⟨fuel, rfl⟩ := Nat.exists_eq_add_of_le' hfuel
    simp only [List.length_cons, ← Nat.add_assoc, run, hq, Recording.run_bind, visit_recorded,
      hvisit]
    rw [ih (Nat.le_add_left _ _), List.flatMap_cons, List.append_assoc]

/-- A loop asks for nothing twice, and about nobody who had been visited before. -/
theorem Loop.nodup_requests (h : Loop source depth w visits outcome) :
    (visits.flatMap Visit.requests).Nodup ∧ ∀ request ∈ visits.flatMap Visit.requests,
      ∃ id ∉ w.visited, request = .node id ∨ request = .edges id := by
  have hnew {depth level : UInt32} {id : String} {w : Walk} {request : Request}
      (h : request ∈ asked source depth id level w) :
      ∃ id ∉ w.visited, request = .node id ∨ request = .edges id :=
    ⟨id, (of_mem_asked h).1, (of_mem_asked h).2.imp_right And.left⟩
  induction h with
  | done hq => exact ⟨.nil, by simp⟩
  | fail hq hrecorded =>
    obtain ⟨-, rfl⟩ := visit_recorded_eq hrecorded
    rw [List.flatMap_singleton]
    exact ⟨nodup_asked, fun request hrequest => hnew hrequest⟩
  | @next w w' id level rest requests visits outcome hq hrecorded _ ih =>
    obtain ⟨hvisit, rfl⟩ := visit_recorded_eq hrecorded
    obtain ⟨hvisited, hmarked⟩ := visited_of_visit hvisit
    rw [List.flatMap_cons]
    refine ⟨List.nodup_append.2 ⟨nodup_asked, ih.1, ?_⟩, fun request hrequest => ?_⟩
    · -- Who is asked about now has been visited, and later requests are not about those.
      rintro request hnow _ hlater rfl
      have hid : id ∈ w'.visited := hmarked (List.ne_nil_of_mem hnow)
      obtain ⟨other, hother, hsame⟩ := ih.2 request hlater
      obtain rfl : id = other := by
        rcases (of_mem_asked hnow).2 with rfl | ⟨rfl, -⟩ <;> simpa using hsame
      exact hother hid
    · rcases List.mem_append.1 hrequest with hnow | hlater
      · exact hnew hnow
      · obtain ⟨other, hother, hsame⟩ := ih.2 request hlater
        exact ⟨other, fun hmem => hother (hvisited hmem), hsame⟩

/-- Edges are asked for on the visit of a stored node before the bound. -/
theorem Loop.edges_requests (h : Loop source depth w visits outcome) {visit : Visit}
    (hvisit : visit ∈ visits) {id : String} (hedges : .edges id ∈ visit.requests) :
    visit.id = id ∧ visit.level < depth ∧ ∃ node, source.node? id = .ok (some node) := by
  have hasked {id' : String} {level : UInt32} {w : Walk}
      (hedges : .edges id ∈ asked source depth id' level w) :
      id' = id ∧ level < depth ∧ ∃ node, source.node? id = .ok (some node) := by
    rcases (of_mem_asked hedges).2 with hnode | ⟨hsame, hlt, hnode⟩
    · cases hnode
    · cases hsame
      exact ⟨rfl, hlt, hnode⟩
  induction h with
  | done hq => cases hvisit
  | fail hq hrecorded =>
    obtain ⟨-, rfl⟩ := visit_recorded_eq hrecorded
    obtain rfl := List.mem_singleton.1 hvisit
    exact hasked hedges
  | next hq hrecorded _ ih =>
    obtain ⟨-, rfl⟩ := visit_recorded_eq hrecorded
    rcases List.mem_cons.1 hvisit with rfl | hvisit
    · exact hasked hedges
    · exact ih hvisit

end Walk

/-- The requests of an analysis are the one for its seeds and those of the loop. -/
theorem analyze_recorded {source : Source (Except ε)} {path : String} {seeds : List Node}
    (hseeds : source.nodesAt path = .ok seeds) {depth : UInt32} {visits : List Walk.Visit}
    {outcome : Except ε Walk} (h : Walk.Loop source depth (.start seeds) visits outcome)
    {edgeCount : ℕ} (hlength : visits.length ≤ seeds.length + 2 * edgeCount) :
    (analyze source.recorded edgeCount path depth).run.run [] =
      (outcome.map (⟨path, depth, ·.files⟩),
        .file path :: visits.flatMap Walk.Visit.requests) := by
  have hfile : (source.recorded.nodesAt path).run.run [] = (.ok seeds, [.file path]) := by
    rw [← hseeds]
    rfl
  rw [analyze, Recording.run_bind, hfile]
  dsimp only
  rw [Recording.run_bind, h.run_recorded hlength]
  cases outcome <;> rfl

/-- The method by which a session makes a request. -/
def Request.method : Request → Method
  | file _ => .findNodes
  | node _ => .getNode
  | edges _ => .getEdges

end Ripple.Impact

namespace Ripple

open Impact

/-! ## Sessions -/

/-- An action that makes the requests of a recording. It has the same result, and the gate
    has counted the requests afterwards, each by its method. -/
def Action.Makes {α : Type} (a : Action α) (t : Tables) (r : Recording GraphError α) : Prop :=
  ∀ (s : Session) (record : List Request), s.Serves t →
    a.result s = (r.run.run record).1 ∧ (a.after s).Serves t ∧
      ∃ made, (r.run.run record).2 = record ++ made ∧ ∀ method,
        (a.after s).gate.calls method = s.gate.calls method + made.countP (·.method = method)

theorem Action.composes_makes (t : Tables) :
    Composes fun α (a : Action α) (r : Recording GraphError α) => a.Makes t r where
  pure _ _ _ hs := ⟨rfl, hs, [], (List.append_nil _).symm, fun _ => rfl⟩
  bind {_ _ a r f g} ha hf s record hs := by
    obtain ⟨hresult, hserves, made, hmade, hcalls⟩ := ha s record hs
    rw [Recording.run_bind]
    cases hr : r.run.run record with
    | mk outcome after =>
      rw [hr] at hresult hmade
      dsimp only at hresult hmade
      subst hmade
      cases outcome with
      | error e =>
        rw [(bind_of_error hresult f).1, (bind_of_error hresult f).2]
        exact ⟨rfl, hserves, made, rfl, hcalls⟩
      | ok value =>
        rw [(bind_of_ok hresult f).1, (bind_of_ok hresult f).2]
        obtain ⟨hresult', hserves', made', hmade', hcalls'⟩ := hf value _ (record ++ made) hserves
        refine ⟨hresult', hserves', made ++ made', ?_, fun method => ?_⟩
        · rw [← List.append_assoc]
          exact hmade'
        · rw [hcalls', hcalls, List.countP_append, Nat.add_assoc]

namespace Session

variable {t : Tables}

theorem query_makes {α : Type} (request : Request) (f : Tables → Except GraphError α) :
    (query request.method f).Makes t (request.answered (f t)) := by
  intro s record hs
  obtain ⟨hresult, hserves⟩ := query_answers request.method f s hs
  refine ⟨hresult, hserves, [request], rfl, fun method => ?_⟩
  rw [query, (request_of_pass (hs.pass _).1).2]
  simp only [Gate.pass, hs.passes]
  by_cases h : method = request.method
  · simp [h]
  · simp [h, Ne.symm h]

theorem source_makes (t : Tables) :
    Source.Relates (fun α (a : Action α) (r : Recording GraphError α) => a.Makes t r) source
      t.source.recorded where
  nodesAt path := query_makes (.file path) (·.nodesAt path)
  node? id := query_makes (.node id) (·.node? id)
  edgesOf id := query_makes (.edges id) (·.edgesOf id)

theorem analyze_makes (path : String) (depth : UInt32) :
    (analyze path depth).Makes t (Impact.analyze t.source.recorded t.edgeCount path depth) := by
  intro s record hs
  rw [analyze, (Action.get_bind _ s).1, (Action.get_bind _ s).2, edgeCount_eq hs.tables]
  exact (Action.composes_makes t).analyze (source_makes t) t.edgeCount path depth s record hs

end Session

variable {s : Session} {t : Tables}

/-- From any seeds and for any depth the loop ends, after no more visits than there are seeds
    and endpoints of edges. It asks for each node once at most and for the edges of each once
    at most, the latter on the visit of a stored node before the depth. An analysis is the loop
    from the nodes of its file, and makes no other requests than that for these and those of the
    loop, all of which the gate of a session counts. -/
theorem exists_loop_nodup_requests (hs : s.Serves t) (seeds : List Node) (depth : UInt32) :
    ∃ visits outcome, Walk.Loop t.source depth (.start seeds) visits outcome ∧
      visits.length ≤ seeds.length + 2 * t.graph.edges.length ∧
      (visits.flatMap Walk.Visit.requests).Nodup ∧
      (∀ visit ∈ visits, ∀ id, .edges id ∈ visit.requests →
        visit.id = id ∧ visit.level < depth ∧ t.graph.Stored id) ∧
      ∀ path, t.nodesAt path = .ok seeds →
        (Impact.analyze t.source.recorded t.edgeCount path depth).run.run [] =
          (outcome.map (⟨path, depth, ·.files⟩),
            .file path :: visits.flatMap Walk.Visit.requests) ∧
        (Session.analyze path depth).result s = outcome.map (⟨path, depth, ·.files⟩) ∧
        ∀ method, ((Session.analyze path depth).after s).gate.calls method =
          s.gate.calls method +
            (.file path :: visits.flatMap Walk.Visit.requests).countP (·.method = method) := by
  obtain ⟨visits, outcome, hloop, hbudget⟩ :=
    Walk.exists_loop t.source_reads depth (.start seeds)
  have hlength := hbudget.trans (Walk.budget_start_le (g := t.graph) seeds)
  refine ⟨visits, outcome, hloop, hlength, hloop.nodup_requests.1,
    fun visit hvisit id hedges => ?_, fun path hseeds => ?_⟩
  · obtain ⟨hid, hlt, node, hnode⟩ := hloop.edges_requests hvisit hedges
    exact ⟨hid, hlt, Graph.stored_of_file? (t.source_reads.node? hnode).symm⟩
  · obtain ⟨hresult, -, made, hmade, hcalls⟩ := Session.analyze_makes path depth s [] hs
    have hrecorded := analyze_recorded hseeds hloop (t.edgeCount_eq ▸ hlength)
    rw [hrecorded] at hresult hmade
    rw [List.nil_append] at hmade
    subst hmade
    exact ⟨hrecorded, hresult, hcalls⟩

/-- On the ring the search from one node goes round, for the greatest depth that there is. -/
theorem exists_loop_nodup_requests_ring :
    (Session.ofTables .ring).Serves .ring ∧
      ∃ seeds visits outcome, Tables.ring.nodesAt "a.rs" = .ok seeds ∧ seeds.length = 1 ∧
        Walk.Loop Tables.ring.source 4294967295 (.start seeds) visits outcome ∧
        visits.length ≤ 1 + 2 * 5 ∧ (visits.flatMap Walk.Visit.requests).Nodup ∧
        (∀ visit ∈ visits, ∀ id, .edges id ∈ visit.requests →
          visit.id = id ∧ visit.level < 4294967295 ∧ Tables.ring.graph.Stored id) ∧
        (Session.analyze "a.rs" 4294967295).result (.ofTables .ring) =
          outcome.map (⟨"a.rs", 4294967295, ·.files⟩) := by
  have hs := Session.ofTables_serves .ring
  obtain ⟨seeds, hseeds⟩ := Tables.ring_readable.nodesAt "a.rs"
  have hone : seeds.length = 1 := by
    have hlengths : (Tables.ring.nodesAt "a.rs").map List.length = .ok 1 := by decide
    rw [hseeds] at hlengths
    exact Except.ok.inj hlengths
  obtain ⟨visits, outcome, hloop, hlength, hnodup, hedges, hanalyze⟩ :=
    exists_loop_nodup_requests hs seeds 4294967295
  rw [hone] at hlength
  exact ⟨hs, seeds, visits, outcome, hseeds, hone, hloop, hlength, hnodup, hedges,
    (hanalyze "a.rs" hseeds).2.1⟩

end Ripple
