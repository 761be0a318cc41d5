import Ripple.Proofs.Impact.Deepen

/-!
# What an analysis reads

A search takes each identifier from its queue for the first time at the distance that the
identifier has. So it asks for the nodes of its file, for the node of an identifier within its
bound, and for the edges of a stored node nearer than that, but for nothing else: two sources
that give the same answers to these are told apart by no search (`Walk.run_of_agreesWithin`).
Nor does it matter how many steps a search may take beyond those that it takes
(`Walk.run_of_le`). An analysis that succeeds has the same report on all such sources
(`Impact.analyze_of_agreesWithin`).

Graphs that share the rows that are asked for (`Graph.SameWithin`) have the same distances within
the bound (`Graph.SameWithin.hops`).
-/

namespace Ripple.Impact

variable {ε : Type} {source source' : Source (Except ε)} {g : Graph} {path : String}
  {depth : UInt32}

/-- Two sources give the same answers to whatever a search within some hops of a file asks of the
    first. -/
structure Source.AgreesWithin (source source' : Source (Except ε)) (g : Graph) (path : String)
    (depth : ℕ) : Prop where
  nodesAt : source'.nodesAt path = source.nodesAt path
  /-- A node within the bound is the same. -/
  node? {id : String} {k : ℕ} : g.Hops path id k → k ≤ depth →
    source'.node? id = source.node? id
  /-- The edges of a stored node nearer than the bound are the same. -/
  edgesOf {id : String} {k : ℕ} : g.Stored id → g.Hops path id k → k < depth →
    source'.edgesOf id = source.edgesOf id

namespace Walk

variable {id : String} {level : UInt32} {w w' : Walk}

/-- A visit at the distance of an identifier cannot tell apart what agrees within the bound. -/
theorem visit_of_agreesWithin (hs : source.Reads g)
    (hagree : source.AgreesWithin source' g path depth.toNat)
    (hhops : id ∉ w.visited → g.Hops path id level.toNat) (hle : level.toNat ≤ depth.toNat) :
    visit source' depth id level w = visit source depth id level w := by
  rw [visit, visit]
  by_cases hskip : level > depth ∨ id ∈ w.visited
  · rw [if_pos hskip, if_pos hskip]
  have hhops := hhops fun hv => hskip (.inr hv)
  rw [if_neg hskip, if_neg hskip, hagree.node? hhops hle]
  cases hnode : source.node? id with
  | error e => rfl
  | ok node =>
    cases node with
    | none => rfl
    | some node =>
      by_cases hlast : level = depth
      · simp only [ok_bind, hlast, if_true]
      · have hstored : g.Stored id := Graph.stored_of_file? (hs.node? hnode).symm
        have hlt := toNat_lt_of_ne hle hlast
        simp only [ok_bind, hlast, if_false, hagree.edgesOf hstored hhops hlt]

/-- A search cannot tell apart what agrees within its bound. -/
theorem run_of_agreesWithin (hs : source.Reads g)
    (hagree : source.AgreesWithin source' g path depth.toNat) (fuel : ℕ)
    (h : Inv g path depth w) : run source' depth fuel w = run source depth fuel w := by
  induction fuel generalizing w with
  | zero => rfl
  | succ fuel ih =>
    cases hq : w.queue with
    | nil => simp only [run, hq]
    | cons head rest =>
      obtain ⟨id, level⟩ := head
      have hvisit := visit_of_agreesWithin (w := { w with queue := rest }) hs hagree
        (fun hv => h.hops_head hq hv) (h.head_le hq)
      simp only [run, hq, hvisit]
      cases hnext : visit source depth id level { w with queue := rest } with
      | error e => rfl
      | ok next =>
        obtain rfl := visit_eq_step hs hnext
        exact ih (h.step hq)

/-- A search that has come to its end stays there, however many steps it may take. -/
theorem run_of_le {fuel fuel' : ℕ} (hle : fuel ≤ fuel')
    (hrun : run source depth fuel w = .ok w') (hq : w'.queue = []) :
    run source depth fuel' w = .ok w' := by
  induction fuel generalizing fuel' w with
  | zero =>
    obtain rfl : w = w' := Except.ok.inj hrun
    cases fuel' with
    | zero => rfl
    | succ fuel' => simp only [run, hq]; rfl
  | succ fuel ih =>
    obtain ⟨more, rfl⟩ := Nat.exists_eq_add_of_le hle
    rw [Nat.add_right_comm, run]
    rw [run] at hrun
    split at hrun
    · exact hrun
    · obtain ⟨next, hnext, hrun⟩ := bind_eq_ok.1 hrun
      rw [hnext]
      exact ih (Nat.le_add_right fuel more) hrun

end Walk

/-- An analysis that succeeds has the same report on whatever agrees with its source within the
    bound, whose edges can be more. -/
theorem analyze_of_agreesWithin (hs : source.Reads g)
    (hagree : source.AgreesWithin source' g path depth.toNat) {edgeCount edgeCount' : ℕ}
    (hedges : g.edges.length ≤ edgeCount) (hle : edgeCount ≤ edgeCount') {report : Report}
    (h : analyze source edgeCount path depth = .ok report) :
    analyze source' edgeCount' path depth = .ok report := by
  obtain ⟨seeds, hseeds, h⟩ := bind_eq_ok.1 h
  obtain ⟨w, hrun, h⟩ := bind_eq_ok.1 h
  have hstart := hs.nodesAt hseeds
  have hbudget := Walk.budget_start_le (g := g) seeds
  obtain ⟨-, -, hq⟩ := Walk.run_ok hs (.start hstart) (.start seeds) (by omega) hrun
  have hmore : Walk.run source depth (seeds.length + 2 * edgeCount') (.start seeds) = .ok w :=
    Walk.run_of_le (by omega) hrun hq
  rw [← Walk.run_of_agreesWithin hs hagree _ (.start hstart)] at hmore
  exact bind_eq_ok.2 ⟨seeds, hagree.nodesAt.trans hseeds, bind_eq_ok.2 ⟨w, hmore, h⟩⟩

end Ripple.Impact

namespace Ripple

/-! ## Rows -/

/-- Two graphs have the same rows of the nodes of a file, of identifiers within some hops of it in
    the first graph, and of the edges of stored nodes nearer than that. -/
structure Graph.SameWithin (g g' : Graph) (path : String) (depth : ℕ) : Prop where
  seeds : g'.nodes.filter (·.filePath = some path) = g.nodes.filter (·.filePath = some path)
  nodes {id : String} {k : ℕ} : g.Hops path id k → k ≤ depth →
    g'.nodes.find? (·.id = id) = g.nodes.find? (·.id = id)
  edges {id : String} {k : ℕ} : g.Stored id → g.Hops path id k → k < depth →
    g'.edges.filter (·.touches id) = g.edges.filter (·.touches id)

namespace Graph.SameWithin

variable {g g' : Graph} {path id : String} {depth k : ℕ}

theorem refl (g : Graph) (path : String) (depth : ℕ) : g.SameWithin g path depth :=
  ⟨rfl, fun _ _ => rfl, fun _ _ _ => rfl⟩

theorem carries_iff (h : g.SameWithin g' path depth) : g'.Carries id path ↔ g.Carries id path := by
  rw [← mem_seeds, ← mem_seeds, Graph.seeds, Graph.seeds, h.seeds]

/-- What lies within the bound is stored in both graphs or in neither. -/
theorem stored_iff (h : g.SameWithin g' path depth) (hr : g.Reaches path k id) (hk : k ≤ depth) :
    g'.Stored id ↔ g.Stored id := by
  obtain ⟨l, hl, hhops⟩ := hr.hops
  rw [← not_iff_not, ← file?_eq_none_iff, ← file?_eq_none_iff, file?, file?,
    h.nodes hhops (hl.trans hk)]

/-- The neighbours of what is stored nearer than the bound are the same. -/
theorem adjacent_iff (h : g.SameWithin g' path depth) (hstored : g.Stored id)
    (hr : g.Reaches path k id) (hk : k < depth) {x : String} :
    g'.Adjacent id x ↔ g.Adjacent id x := by
  obtain ⟨l, hl, hhops⟩ := hr.hops
  rw [← mem_neighbors, ← mem_neighbors, neighbors, neighbors,
    h.edges hstored hhops (hl.trans_lt hk)]

/-- Within the bound the same is reached. -/
theorem reaches_iff (h : g.SameWithin g' path depth) (hk : k ≤ depth) :
    g'.Reaches path k id ↔ g.Reaches path k id := by
  constructor
  · intro hr
    induction hr with
    | seed hc => exact .seed (h.carries_iff.1 hc)
    | @step k x y _ hstored hadj ih =>
      have hx : g.Reaches path k x := ih (by omega)
      have hstored : g.Stored x := (h.stored_iff hx (by omega)).1 hstored
      exact .step hx hstored ((h.adjacent_iff hstored hx hk).1 hadj)
  · intro hr
    induction hr with
    | seed hc => exact .seed (h.carries_iff.2 hc)
    | @step k x y hx hstored hadj ih =>
      exact .step (ih (by omega)) ((h.stored_iff hx (by omega)).2 hstored)
        ((h.adjacent_iff hstored hx hk).2 hadj)

/-- Within the bound the distances are the same. -/
theorem hops (h : g.SameWithin g' path depth) (hk : k ≤ depth) (hhops : g'.Hops path id k) :
    g.Hops path id k := by
  refine ⟨(h.reaches_iff hk).1 hhops.1, fun l hl => ?_⟩
  rcases le_total k l with hle | hle
  · exact hle
  · exact hhops.2 ((h.reaches_iff (hle.trans hk)).2 hl)

end Graph.SameWithin

end Ripple
