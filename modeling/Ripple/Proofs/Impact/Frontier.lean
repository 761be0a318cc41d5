import Ripple.Proofs.Impact.Reach

/-!
# The frontier of an analysis

A search goes outwards, nearest first. At each of its iterations `Walk.Inv` holds of what is
queued and of who has been visited, and `Walk.Dated` of what has been taken from the queue:
whoever is taken for the first time is taken at its distance. It may be queued with a greater
level as well, and taken once more.

No level exceeds the bound, so that the loop tests this in vain. To a level it adds one only
before the bound, and the sum exists even where the bound is the greatest level that there is
(`nearestFirst_of_after`).
-/

namespace Ripple.Impact

variable {ε : Type} {source : Source (Except ε)} {g : Graph} {path : String} {depth : UInt32}
  {id : String} {level : UInt32} {rest taken : List (String × UInt32)} {first w : Walk}

namespace Walk

/-- What holds at every iteration of the entries that have been taken. -/
structure Dated (g : Graph) (path : String) (taken : List (String × UInt32)) (w : Walk) :
    Prop where
  /-- Whoever has been taken has been visited. -/
  visited : ∀ a ∈ taken, a.1 ∈ w.visited
  /-- Whoever has been visited was taken, and at its distance for the first time. -/
  hops : ∀ id ∈ w.visited, ∃ level, taken.find? (·.1 = id) = some (id, level) ∧
    g.Hops path id level.toNat

/-- A step keeps what holds of the entries that have been taken. -/
theorem Dated.step (hd : Dated g path taken w) (h : Inv g path depth w)
    (hq : w.queue = (id, level) :: rest) :
    Dated g path (taken ++ [(id, level)]) (step g depth id level { w with queue := rest }) := by
  have hold : ∀ x ∈ w.visited, ∃ l, (taken ++ [(id, level)]).find? (·.1 = x) = some (x, l) ∧
      g.Hops path x l.toNat := by
    intro x hx
    obtain ⟨l, hfind, hhops⟩ := hd.hops x hx
    exact ⟨l, by rw [List.find?_append, hfind, Option.some_or], hhops⟩
  by_cases hv : id ∈ w.visited
  · rw [step_of_mem (by exact hv)]
    refine ⟨?_, hold⟩
    simpa [or_imp, forall_and, hv] using hd.visited
  have hvisited := (step_of_not_mem (g := g) (w := { w with queue := rest }) (h.head_le hq) hv).1
  dsimp only at hvisited
  refine ⟨fun a ha => ?_, fun x hx => ?_⟩
  · rw [hvisited]
    rcases List.mem_append.1 ha with ha | ha
    · exact List.mem_cons_of_mem _ (hd.visited a ha)
    · rw [List.mem_singleton.1 ha]
      exact List.mem_cons_self
  · rw [hvisited] at hx
    rcases List.mem_cons.1 hx with rfl | hx
    · -- Nobody has taken it before, as it would have been visited then.
      have hnone : taken.find? (·.1 = x) = none := List.find?_eq_none.2 fun a ha heq =>
        hv (of_decide_eq_true heq ▸ hd.visited a ha)
      exact ⟨level, by simp [hnone], h.hops_head hq hv⟩
    · exact hold x hx

theorem After.dated (hs : source.Reads g) (hfirst : Inv g path depth first)
    (hvisited : first.visited = []) (h : After source depth first taken w) :
    Dated g path taken w := by
  induction h with
  | start => exact ⟨by simp, by simp [hvisited]⟩
  | next hafter hq hvisit ih =>
    obtain rfl := visit_eq_step hs hvisit
    exact ih.step (hafter.inv hs hfirst) hq

end Walk

/-- From each of its iterations an analysis goes on, with at least as many steps left as there
    are entries in the queue. -/
theorem analyze_of_after (hs : source.Reads g) {edgeCount : ℕ}
    (hedges : g.edges.length ≤ edgeCount) {seeds : List Node}
    (hseeds : source.nodesAt path = .ok seeds)
    (h : Walk.After source depth (.start seeds) taken w) :
    ∃ fuel ≥ w.queue.length, analyze source edgeCount path depth =
      (Walk.run source depth fuel w).map (⟨path, depth, ·.files⟩) := by
  have hbudget := (h.length_add_budget_le hs).trans (Walk.budget_start_le seeds)
  have hqueue : w.queue.length ≤ Walk.budget g w := Nat.le_add_right _ _
  obtain ⟨fuel, hfuel⟩ : ∃ fuel, seeds.length + 2 * edgeCount = taken.length + fuel :=
    Nat.exists_eq_add_of_le (by omega)
  refine ⟨fuel, by omega, ?_⟩
  rw [analyze, hseeds, ok_bind, hfuel, h.run]
  rfl

end Ripple.Impact

namespace Ripple

open Impact

variable {s : Session} {t : Tables}

/-- At every iteration of an analysis, which goes on from there, the levels in the queue do not
    decrease, differ by one at most and do not exceed the bound. Whoever has been visited was
    taken from the queue at its distance, when it was taken first. Whoever lies within the bound
    and has not been visited is queued, or one before it on a shortest walk is, who has not been
    visited either. The level that is taken next does not exceed the bound, and unless it is the
    bound one can be added to it. -/
theorem nearestFirst_of_after (hs : s.Serves t) {path : String} {depth : UInt32}
    {seeds : List Node} (hseeds : t.nodesAt path = .ok seeds) {taken : List (String × UInt32)}
    {w : Walk} (h : Walk.After t.source depth (.start seeds) taken w) :
    (∃ fuel ≥ w.queue.length, (Session.analyze path depth).result s =
      (Walk.run t.source depth fuel w).map (⟨path, depth, ·.files⟩)) ∧
    w.queue.Pairwise (fun a b => a.2 ≤ b.2) ∧
    (∀ a ∈ w.queue, ∀ b ∈ w.queue, b.2.toNat ≤ a.2.toNat + 1) ∧
    (∀ a ∈ w.queue, a.2 ≤ depth) ∧
    (∀ id ∈ w.visited, ∃ level, taken.find? (·.1 = id) = some (id, level) ∧
      t.graph.Hops path id level.toNat) ∧
    (∀ id k, t.graph.Hops path id k → k ≤ depth.toNat → id ∉ w.visited →
      ∃ a ∈ w.queue, a.1 ∉ w.visited ∧ t.graph.Hops path a.1 a.2.toNat ∧
        ∃ l, t.graph.Leads a.1 l id ∧ a.2.toNat + l = k) ∧
    ∀ id level rest, w.queue = (id, level) :: rest →
      ¬level > depth ∧ (level ≠ depth → (level + 1).toNat = level.toNat + 1) := by
  have hreads := t.source_reads
  have hfirst : Walk.Inv t.graph path depth (.start seeds) := .start (hreads.nodesAt hseeds)
  have hinv := h.inv hreads hfirst
  obtain ⟨fuel, hfuel, hanalyze⟩ := analyze_of_after hreads t.edgeCount_eq.ge hseeds h
  refine ⟨⟨fuel, hfuel, ?_⟩, ?_, hinv.narrow, fun a ha => ?_, (h.dated hreads hfirst rfl).hops,
    fun id k => hinv.exists_queued, fun id level rest hq => ?_⟩
  · rw [(Session.analyze_answers path depth s hs).1, Tables.analyze, hanalyze]
  · exact hinv.ordered.imp UInt32.le_iff_toNat_le.2
  · exact UInt32.le_iff_toNat_le.2 (hinv.within a ha)
  · have hle := hinv.head_le hq
    exact ⟨Walk.not_gt_of_toNat_le hle, fun hne =>
      Walk.toNat_succ_of_lt (Walk.toNat_lt_of_ne hle hne)⟩

/-- On the ring, and for the greatest depth that there is, a node is queued twice after two
    visits, with levels that differ. -/
theorem nearestFirst_of_after_ring :
    (Session.ofTables .ring).Serves .ring ∧
      ∃ seeds w, Tables.ring.nodesAt "a.rs" = .ok seeds ∧
        w.queue = [("c", 1), ("gone", 1), ("c", 2)] ∧ w.visited = ["b", "a"] ∧
        Walk.After Tables.ring.source 4294967295 (.start seeds) [("a", 0), ("b", 1)] w ∧
        (∃ fuel ≥ 3, (Session.analyze "a.rs" 4294967295).result (.ofTables .ring) =
          (Walk.run Tables.ring.source 4294967295 fuel w).map (⟨"a.rs", 4294967295, ·.files⟩)) ∧
        (∀ id ∈ w.visited, ∃ level,
          [("a", (0 : UInt32)), ("b", 1)].find? (·.1 = id) = some (id, level) ∧
            Tables.ring.graph.Hops "a.rs" id level.toNat) ∧
        (∀ id k, Tables.ring.graph.Hops "a.rs" id k → k ≤ 4294967295 → id ∉ w.visited →
          ∃ a ∈ w.queue, a.1 ∉ w.visited ∧ Tables.ring.graph.Hops "a.rs" a.1 a.2.toNat ∧
            ∃ l, Tables.ring.graph.Leads a.1 l id ∧ a.2.toNat + l = k) ∧
        ¬(1 : UInt32) > 4294967295 ∧ ((1 : UInt32) + 1).toNat = 2 := by
  have hs := Session.ofTables_serves .ring
  obtain ⟨seeds, hseeds⟩ := Tables.ring_readable.nodesAt "a.rs"
  have hstart : Walk.start seeds = ⟨[("a", 0)], [], []⟩ := by
    have hids : seeds.map Node.id = ["a"] := Tables.ring.source_reads.nodesAt hseeds
    rw [Walk.start_eq, hids]
    rfl
  have hone : Walk.visit Tables.ring.source 4294967295 "a" 0 ⟨[], [], []⟩ =
      .ok ⟨[("b", 1), ("c", 1), ("gone", 1)], ["a"], ["a.rs"]⟩ := by
    decide
  have htwo : Walk.visit Tables.ring.source 4294967295 "b" 1
      ⟨[("c", 1), ("gone", 1)], ["a"], ["a.rs"]⟩ =
      .ok ⟨[("c", 1), ("gone", 1), ("c", 2)], ["b", "a"], ["a.rs"]⟩ := by
    decide
  have hafter : Walk.After Tables.ring.source 4294967295 (.start seeds) [("a", 0), ("b", 1)]
      ⟨[("c", 1), ("gone", 1), ("c", 2)], ["b", "a"], ["a.rs"]⟩ := by
    rw [hstart]
    exact .next (.next .start rfl hone) rfl htwo
  obtain ⟨hanalyze, -, -, -, hvisited, hqueued, hhead⟩ :=
    nearestFirst_of_after hs hseeds hafter
  obtain ⟨hbound, hsucc⟩ := hhead "c" 1 _ rfl
  exact ⟨hs, seeds, _, hseeds, rfl, rfl, hafter, hanalyze, hvisited, hqueued, hbound,
    hsucc (by decide)⟩

end Ripple
