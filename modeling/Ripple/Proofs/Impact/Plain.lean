import Ripple.Proofs.Impact.Reach

/-!
# The plain search

An analysis keeps some entries out of its queue: neighbours that have been visited already,
and all neighbours of a node at the bound. The plain search (`Impact.Plain`) keeps out
nothing. It queues every neighbour of every stored node that it visits, its levels are
natural numbers without a bound of their own, and it drops an entry only when that is
taken from the queue.

So the queues of the two differ at almost every step, but the queue of the analysis is the
plain one without entries that will be dropped (`Plain.Trims`). A step of the plain search
drops such an entry, while the analysis waits, or it is a step of both
(`Plain.Trails.step`). So both list the same files in the same order
(`files_analyze_eq_plain`).
-/

namespace Ripple.Impact

/-- How far a plain search has come. -/
structure Plain where
  /-- The identifiers to be visited, each with its number of hops. -/
  queue : List (String × ℕ)
  /-- The identifiers that have been visited. -/
  visited : List String
  /-- The files that have been met, in order. -/
  files : List String

namespace Plain

/-- The beginning of a plain search from some nodes. -/
def start (seeds : List Node) : Plain := ⟨seeds.map fun node => (node.id, 0), [], []⟩

section Definition

variable {m : Type → Type} [Monad m]

/-- Visits an identifier that has been taken from the queue, unless it has been visited or
    lies too far. All neighbours of a stored node are queued. -/
def visit (source : Source m) (depth : ℕ) (id : String) (level : ℕ) (p : Plain) : m Plain := do
  if depth < level ∨ id ∈ p.visited then return p
  match ← source.node? id with
  | none => return { p with visited := id :: p.visited }
  | some node =>
    let neighbors := (← source.edgesOf id).map (·.neighborOf id)
    return {
      queue := p.queue ++ neighbors.map fun neighbor => (neighbor, level + 1)
      visited := id :: p.visited
      files := Walk.list node.filePath p.files }

/-- Visits what is queued, up to a number of times. -/
def run (source : Source m) (depth : ℕ) : (fuel : ℕ) → Plain → m Plain
  | 0, p => return p
  | fuel + 1, p =>
    match p.queue with
    | [] => return p
    | (id, level) :: queue => do
      run source depth fuel (← visit source depth id level { p with queue })

/-- The plain search from the nodes of a file, for a number of visits. -/
def analyze (source : Source m) (fuel : ℕ) (path : String) (depth : ℕ) : m Plain := do
  run source depth fuel (.start (← source.nodesAt path))

end Definition

variable {ε : Type} {source : Source (Except ε)} {g : Graph}

/-- What a visit comes to if nothing fails. -/
def step (g : Graph) (depth : ℕ) (id : String) (level : ℕ) (p : Plain) : Plain :=
  if depth < level ∨ id ∈ p.visited then p
  else
    match g.file? id with
    | none => { p with visited := id :: p.visited }
    | some file => {
      queue := p.queue ++ (g.neighbors id).map fun neighbor => (neighbor, level + 1)
      visited := id :: p.visited
      files := Walk.list file p.files }

/-- A source that never fails is visited step by step. -/
theorem visit_eq_step (hs : source.Reads g) (hnode : ∀ id, ∃ node, source.node? id = .ok node)
    (hedges : ∀ id, ∃ edges, source.edgesOf id = .ok edges) (depth : ℕ) (id : String) (level : ℕ)
    (p : Plain) : visit source depth id level p = .ok (step g depth id level p) := by
  obtain ⟨node, hnode⟩ := hnode id
  obtain ⟨edges, hedges⟩ := hedges id
  rw [visit, step, ← hs.node? hnode, ← hs.edgesOf hedges, hnode, hedges]
  split
  · rfl
  · cases node <;> rfl

/-! ## The end -/

/-- The steps that a plain search can take at most: one for each entry of the queue, and one
    for each endpoint of an edge that has not been visited. -/
def budget (g : Graph) (p : Plain) : ℕ :=
  p.queue.length + (g.edges.map (Walk.openEnds p.visited)).sum

theorem budget_step_lt (g : Graph) (depth : ℕ) (id : String) (level : ℕ)
    (rest : List (String × ℕ)) (visited files : List String) :
    budget g (step g depth id level ⟨rest, visited, files⟩) <
      budget g ⟨(id, level) :: rest, visited, files⟩ := by
  rw [step]
  split
  · simp only [budget, List.length_cons]
    omega
  · rename_i hskip
    have hv : id ∉ visited := fun hv => hskip (.inr hv)
    have hends := Walk.length_touching_add_sum_le hv g.edges
    split
    · simp only [budget, List.length_cons]
      omega
    · -- What is queued is paid for by the ends that the visit closes.
      have hneighbors : (g.neighbors id).length = (g.edges.filter (·.touches id)).length := by
        rw [Graph.neighbors, List.length_map]
      simp only [budget, List.length_cons, List.length_append, List.length_map]
      omega

/-! ## Queues -/

/-- The queue of an analysis is a plain queue without entries that will be dropped. -/
inductive Trims (depth : ℕ) (visited : List String) :
    List (String × UInt32) → List (String × ℕ) → Prop
  | nil : Trims depth visited [] []
  | keep {id : String} {level : UInt32} {queue : List (String × UInt32)}
    {plain : List (String × ℕ)} : Trims depth visited queue plain →
      Trims depth visited ((id, level) :: queue) ((id, level.toNat) :: plain)
  | drop {id : String} {level : ℕ} {queue : List (String × UInt32)} {plain : List (String × ℕ)} :
      depth < level ∨ id ∈ visited → Trims depth visited queue plain →
      Trims depth visited queue ((id, level) :: plain)

namespace Trims

variable {depth : ℕ} {visited : List String} {queue queue' : List (String × UInt32)}
  {plain plain' : List (String × ℕ)}

/-- What will be dropped stays so when more has been visited. -/
theorem mono {visited' : List String} (hsub : visited ⊆ visited')
    (h : Trims depth visited queue plain) : Trims depth visited' queue plain := by
  induction h with
  | nil => exact .nil
  | keep _ ih => exact .keep ih
  | drop hskip _ ih => exact .drop (hskip.imp_right fun hv => hsub hv) ih

theorem append (h : Trims depth visited queue plain) (h' : Trims depth visited queue' plain') :
    Trims depth visited (queue ++ queue') (plain ++ plain') := by
  induction h with
  | nil => exact h'
  | keep _ ih => exact .keep ih
  | drop hskip _ ih => exact .drop hskip ih

/-- Neighbours within the bound are kept unless they have been visited. -/
theorem neighbors {level : UInt32} (hlevel : (level + 1).toNat = level.toNat + 1)
    (ids : List String) :
    Trims depth visited ((ids.filter (· ∉ visited)).map fun id => (id, level + 1))
      (ids.map fun id => (id, level.toNat + 1)) := by
  induction ids with
  | nil => exact .nil
  | cons id ids ih =>
    by_cases hv : id ∈ visited
    · rw [List.filter_cons_of_neg (by simpa using hv)]
      exact .drop (.inr hv) ih
    · rw [List.filter_cons_of_pos (by simpa using hv), List.map_cons, List.map_cons, ← hlevel]
      rw [← hlevel] at ih
      exact .keep ih

/-- Neighbours beyond the bound are dropped. -/
theorem beyond {level : ℕ} (hlevel : depth < level) (ids : List String) :
    Trims depth visited [] (ids.map fun id => (id, level)) := by
  induction ids with
  | nil => exact .nil
  | cons id ids ih => exact .drop (.inl hlevel) ih

end Trims

/-! ## The two searches -/

/-- An analysis that has come as far as a plain search. -/
structure Trails (depth : UInt32) (w : Walk) (p : Plain) : Prop where
  visited : p.visited = w.visited
  files : p.files = w.files
  queue : Trims depth.toNat w.visited w.queue p.queue

variable {depth : UInt32} {w w' : Walk} {p : Plain}

theorem Trails.start (depth : UInt32) (seeds : List Node) :
    Trails depth (.start seeds) (.start seeds) where
  visited := rfl
  files := rfl
  queue := by
    simp only [Walk.start, Plain.start]
    induction seeds with
    | nil => exact .nil
    | cons node seeds ih => exact .keep ih

/-- A step that both take. -/
theorem Trails.step (h : Trails depth w p) (g : Graph) (id : String) (level : UInt32) :
    Trails depth (Walk.step g depth id level w) (Plain.step g depth.toNat id level.toNat p) := by
  obtain ⟨hvisited, hfiles, hqueue⟩ := h
  rw [Walk.step, Plain.step, hvisited, hfiles]
  have hbound : level > depth ↔ depth.toNat < level.toNat := UInt32.lt_iff_toNat_lt
  by_cases hskip : depth.toNat < level.toNat ∨ id ∈ w.visited
  · rw [if_pos hskip, if_pos (hskip.imp_left hbound.2)]
    exact ⟨hvisited, hfiles, hqueue⟩
  rw [if_neg hskip, if_neg fun h => hskip (h.imp_left hbound.1)]
  have hmore : Trims depth.toNat (id :: w.visited) w.queue p.queue :=
    hqueue.mono (List.subset_cons_self _ _)
  cases g.file? id with
  | none => exact ⟨rfl, rfl, hmore⟩
  | some file =>
    simp only [Walk.meet_eq]
    have hle : level.toNat ≤ depth.toNat := Nat.le_of_not_lt fun hlt => hskip (.inl hlt)
    by_cases hlast : level = depth
    · -- The analysis stops here; what the plain search queues lies beyond the bound.
      rw [if_pos hlast]
      refine ⟨rfl, rfl, ?_⟩
      have hbeyond := hmore.append (.beyond (show depth.toNat < level.toNat + 1 by
        rw [hlast]; exact Nat.lt_succ_self _) (g.neighbors id))
      rwa [List.append_nil] at hbeyond
    · rw [if_neg hlast]
      have hlt := Walk.toNat_lt_of_ne hle hlast
      exact ⟨rfl, rfl, hmore.append (.neighbors (Walk.toNat_succ_of_lt hlt) (g.neighbors id))⟩

/-- Where the plain queue is empty both are at their end. -/
theorem Trails.run_of_nil {fuel fuel' : ℕ} (h : Trails depth w p) (hq : p.queue = [])
    (hrun : Walk.run source depth fuel' w = .ok w') :
    run source depth.toNat fuel p = .ok ⟨[], w'.visited, w'.files⟩ := by
  obtain ⟨plain, visited, files⟩ := p
  obtain ⟨queue, _, _⟩ := w
  obtain ⟨rfl, rfl, hqueue⟩ := h
  obtain rfl : plain = [] := hq
  obtain rfl : queue = [] := by
    cases hqueue
    rfl
  have hw : w' = ⟨[], visited, files⟩ := by cases fuel' <;> exact (Except.ok.inj hrun).symm
  rw [hw]
  cases fuel <;> rfl

/-- Where an analysis ends, the plain search that it trails ends as well, if it may take
    enough steps. -/
theorem Trails.run (hs : source.Reads g) (hnode : ∀ id, ∃ node, source.node? id = .ok node)
    (hedges : ∀ id, ∃ edges, source.edgesOf id = .ok edges) {fuel fuel' : ℕ}
    (h : Trails depth w p) (hfuel : budget g p ≤ fuel)
    (hrun : Walk.run source depth fuel' w = .ok w') (hend : w'.queue = []) :
    Plain.run source depth.toNat fuel p = .ok ⟨[], w'.visited, w'.files⟩ := by
  -- The induction is on the steps of the plain search, during some of which the analysis waits.
  induction fuel generalizing w p fuel' with
  | zero =>
    rw [budget] at hfuel
    exact h.run_of_nil (List.eq_nil_of_length_eq_zero (by omega)) hrun
  | succ fuel ih =>
    obtain ⟨plain, visited, files⟩ := p
    obtain ⟨queue, _, _⟩ := w
    obtain ⟨rfl, rfl, hqueue⟩ := h
    cases hqueue with
    | nil => exact Trails.run_of_nil ⟨rfl, rfl, .nil⟩ rfl hrun
    | @keep id level queue plain hqueue =>
      have hlt := budget_step_lt g depth.toNat id level.toNat plain visited files
      cases fuel' with
      | zero =>
        obtain rfl := Except.ok.inj hrun
        exact absurd hend (List.cons_ne_nil _ _)
      | succ fuel' =>
        obtain ⟨next, hvisit, hrun⟩ := bind_eq_ok.1 hrun
        obtain rfl := Walk.visit_eq_step hs hvisit
        simp only [Plain.run, visit_eq_step hs hnode hedges, ok_bind]
        exact ih (Trails.step ⟨rfl, rfl, hqueue⟩ g id level) (by omega) hrun
    | @drop id level _ plain hskip hqueue =>
      have hlt := budget_step_lt g depth.toNat id level plain visited files
      have hstep : Plain.step g depth.toNat id level ⟨plain, visited, files⟩ =
        ⟨plain, visited, files⟩ := if_pos hskip
      rw [hstep] at hlt
      simp only [Plain.run, visit_eq_step hs hnode hedges, ok_bind, hstep]
      exact ih ⟨rfl, rfl, hqueue⟩ (by omega) hrun

end Plain

end Ripple.Impact

namespace Ripple

open Impact

variable {s : Session} {t : Tables}

/-- On tables that can be read, an analysis lists the files of the plain search in their
    order. That search ends, however many more steps it may take. -/
theorem files_analyze_eq_plain (hs : s.Serves t) (ht : t.Readable) (path : String)
    (depth : UInt32) :
    ∃ report visited steps, (Session.analyze path depth).result s = .ok report ∧
      ∀ fuel ≥ steps, Plain.analyze t.source fuel path depth.toNat =
        .ok ⟨[], visited, report.files⟩ := by
  obtain ⟨report, hreport⟩ := ht.analyze path depth
  have hresult := (Session.analyze_answers path depth s hs).1.trans hreport
  obtain ⟨seeds, hseeds, hrest⟩ := bind_eq_ok.1 hreport
  obtain ⟨w, hrun, hreport⟩ := bind_eq_ok.1 hrest
  obtain rfl := Except.ok.inj hreport
  have hedges : t.graph.edges.length = t.edgeCount := t.edgeCount_eq.symm
  have hbudget := Walk.budget_start_le (g := t.graph) seeds
  obtain ⟨-, -, hend⟩ := Walk.run_ok t.source_reads (.start (t.source_reads.nodesAt hseeds))
    (.start seeds) (by omega) hrun
  refine ⟨_, w.visited, Plain.budget t.graph (.start seeds), hresult, fun fuel hfuel => ?_⟩
  rw [Plain.analyze, hseeds, ok_bind]
  exact (Plain.Trails.start depth seeds).run t.source_reads ht.node? ht.edgesOf hfuel hrun hend

theorem files_analyze_eq_plain_ring :
    (Session.ofTables .ring).Serves .ring ∧ Tables.ring.Readable ∧
      ∃ report visited steps,
        (Session.analyze "a.rs" 2).result (.ofTables .ring) = .ok report ∧
        ∀ fuel ≥ steps, Plain.analyze Tables.ring.source fuel "a.rs" 2 =
          .ok ⟨[], visited, report.files⟩ :=
  ⟨Session.ofTables_serves _, Tables.ring_readable,
    files_analyze_eq_plain (Session.ofTables_serves _) Tables.ring_readable "a.rs" 2⟩

end Ripple
