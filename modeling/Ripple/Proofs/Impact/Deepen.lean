import Ripple.Proofs.Impact.Iteration

/-!
# Analyses of two depths

A deeper search does what a shallower one does, step by step, until the shallower one is
at its end: it only queues more, and what it queues more lies beyond the lesser bound
(`Walk.Lockstep`). Whatever it asks of the source until then the shallower search asks as
well or leaves alone. So an analysis that succeeds succeeds at any lesser depth, and lists
a beginning of the files (`analyze_deepen`).

`analyze_ok` says what the end of a search comes to in its report.
-/

namespace Ripple.Impact

variable {ε : Type} {source : Source (Except ε)} {g : Graph} {path : String}
  {depth deeper : UInt32}

namespace Walk

variable {id : String} {level : UInt32} {rest : List (String × UInt32)} {w w' r' : Walk}

/-- Two searches that differ in what the second has queued beyond the bound of the first. -/
structure Lockstep (depth : UInt32) (w w' : Walk) : Prop where
  visited : w'.visited = w.visited
  files : w'.files = w.files
  queue : ∃ beyond, w'.queue = w.queue ++ beyond ∧ ∀ a ∈ beyond, depth.toNat < a.2.toNat

/-- A step keeps two searches in lockstep. -/
theorem Lockstep.step {beyond : List (String × UInt32)} (hle : depth.toNat ≤ deeper.toNat)
    (h' : Inv g path deeper w') (hl : level.toNat ≤ depth.toNat)
    (hvisited : w'.visited = w.visited) (hfiles : w'.files = w.files)
    (hq' : w'.queue = (id, level) :: (rest ++ beyond))
    (hbeyond : ∀ a ∈ beyond, depth.toNat < a.2.toNat) :
    Lockstep depth (step g depth id level { w with queue := rest })
      (step g deeper id level { w' with queue := rest ++ beyond }) := by
  have hbound := not_gt_of_toNat_le hl
  have hbound' := not_gt_of_toNat_le (hl.trans hle)
  simp only [Walk.step]
  by_cases hv : id ∈ w.visited
  · rw [if_pos (.inr hv), if_pos (.inr (by exact hvisited ▸ hv))]
    exact ⟨hvisited, hfiles, beyond, rfl, hbeyond⟩
  rw [if_neg (not_or.2 ⟨hbound, hv⟩), if_neg (not_or.2 ⟨hbound', by exact hvisited ▸ hv⟩)]
  cases g.file? id with
  | none => exact ⟨by simp only [hvisited], hfiles, beyond, rfl, hbeyond⟩
  | some file =>
    simp only [meet_eq, hvisited, hfiles]
    by_cases hlast : level = depth
    · rw [if_pos hlast]
      split
      · exact ⟨rfl, rfl, beyond, rfl, hbeyond⟩
      · -- Only the deeper search goes on from here, to a level beyond the bound.
        rename_i hmore
        have hlt := toNat_lt_of_ne (hl.trans hle) hmore
        refine ⟨rfl, rfl, _, List.append_assoc _ _ _, fun a ha => ?_⟩
        rcases List.mem_append.1 ha with ha | ha
        · exact hbeyond a ha
        · obtain ⟨y, -, rfl⟩ := List.mem_map.1 ha
          rw [toNat_succ_of_lt hlt, hlast]
          exact Nat.lt_succ_self _
    · have hlt := toNat_lt_of_ne hl hlast
      have hmore : level ≠ deeper := fun he => by rw [he] at hlt; omega
      rw [if_neg hlast, if_neg hmore]
      -- The levels of a queue differ by one at most, so nothing beyond is queued yet.
      have hnil : beyond = [] := List.eq_nil_iff_forall_not_mem.2 fun a ha => by
        have hnarrow : a.2.toNat ≤ level.toNat + 1 :=
          h'.narrow (id, level) (by simp [hq']) a (by simp [hq', ha])
        have := hbeyond a ha
        omega
      subst hnil
      exact ⟨rfl, rfl, [], by simp [enqueue], by simp⟩

/-- A visit that succeeds with more depth succeeds with less. -/
theorem visit_ok_of_deeper (hle : depth.toNat ≤ deeper.toNat) (hl : level.toNat ≤ depth.toNat)
    (hvisited : w'.visited = w.visited) (h : visit source deeper id level w' = .ok r') :
    ∃ r, visit source depth id level w = .ok r := by
  have hbound' := not_gt_of_toNat_le (hl.trans hle)
  rw [visit] at h ⊢
  by_cases hskip : level > depth ∨ id ∈ w.visited
  · exact ⟨w, if_pos hskip⟩
  rw [if_neg (not_or.2 ⟨hbound', by rw [hvisited]; exact fun hv => hskip (.inr hv)⟩)] at h
  rw [if_neg hskip]
  obtain ⟨node, hnode, h⟩ := bind_eq_ok.1 h
  rw [hnode]
  cases node with
  | none => exact ⟨_, rfl⟩
  | some node =>
    by_cases hlast : level = depth
    · exact ⟨_, if_pos hlast⟩
    · -- Below both bounds the two visits ask for the same edges.
      have hlt := toNat_lt_of_ne hl hlast
      have hmore : level ≠ deeper := fun he => by rw [he] at hlt; omega
      simp only [hmore, if_false] at h
      obtain ⟨edges, hedges, h⟩ := bind_eq_ok.1 h
      exact ⟨_, by simp only [ok_bind, hlast, if_false, hedges]; rfl⟩

/-- A step only adds files, at the end. -/
theorem prefix_step (g : Graph) (depth : UInt32) (id : String) (level : UInt32) (w : Walk) :
    w.files <+: (Walk.step g depth id level w).files := by
  rw [Walk.step]
  split
  · exact List.prefix_rfl
  · split
    · exact List.prefix_rfl
    · simp only [meet_eq]
      split
      · exact prefix_list _ _
      · exact prefix_list _ _

/-- A search only adds files, at the end. -/
theorem prefix_run (hs : source.Reads g) {fuel : ℕ} (h : run source depth fuel w = .ok w') :
    w.files <+: w'.files := by
  obtain ⟨taken, hafter, -⟩ := After.start.of_run_eq_ok h
  clear h
  induction hafter with
  | start => exact List.prefix_rfl
  | @next _ rest id level w' _ _ _ hvisit ih =>
    obtain rfl := visit_eq_step hs hvisit
    exact ih.trans (prefix_step g depth id level { w' with queue := rest })

/-- A search that succeeds with more depth succeeds with less, and then lists a beginning
    of the files. -/
theorem run_deepen (hs : source.Reads g) (hle : depth.toNat ≤ deeper.toNat) {fuel : ℕ}
    (h : Inv g path depth w) (h' : Inv g path deeper w') (hstep : Lockstep depth w w')
    (hrun : run source deeper fuel w' = .ok r') :
    ∃ r, run source depth fuel w = .ok r ∧ r.files <+: r'.files := by
  induction fuel generalizing w w' with
  | zero =>
    obtain rfl : w' = r' := Except.ok.inj hrun
    exact ⟨w, rfl, hstep.files ▸ List.prefix_rfl⟩
  | succ fuel ih =>
    cases hq : w.queue with
    | nil =>
      -- The shallower search is at its end, and the deeper one only adds files.
      refine ⟨w, by simp only [run, hq]; rfl, ?_⟩
      rw [← hstep.files]
      exact prefix_run hs hrun
    | cons head rest =>
      obtain ⟨id, level⟩ := head
      obtain ⟨beyond, hq', hbeyond⟩ := hstep.queue
      rw [hq, List.cons_append] at hq'
      have hl := h.head_le hq
      simp only [run, hq'] at hrun
      obtain ⟨next', hvisit', hrun⟩ := bind_eq_ok.1 hrun
      obtain ⟨next, hvisit⟩ := visit_ok_of_deeper (w := { w with queue := rest }) hle hl
        (by exact hstep.visited) hvisit'
      obtain rfl := visit_eq_step hs hvisit'
      obtain rfl := visit_eq_step hs hvisit
      obtain ⟨r, hr, hpre⟩ := ih (h.step hq) (h'.step hq')
        (.step hle h' hl hstep.visited hstep.files hq' hbeyond) hrun
      refine ⟨r, ?_, hpre⟩
      simp only [run, hq]
      exact bind_eq_ok.2 ⟨_, hvisit, hr⟩

/-- A search succeeds if its source always does. -/
theorem run_total (hnode : ∀ id, ∃ node, source.node? id = .ok node)
    (hedges : ∀ id, ∃ edges, source.edgesOf id = .ok edges) (fuel : ℕ) (w : Walk) :
    ∃ r, run source depth fuel w = .ok r := by
  have hvisit (id : String) (level : UInt32) (w : Walk) :
      ∃ r, visit source depth id level w = .ok r := by
    obtain ⟨node, hnode⟩ := hnode id
    obtain ⟨edges, hedges⟩ := hedges id
    simp only [visit, hnode, hedges, ok_bind]
    split
    · exact ⟨_, rfl⟩
    · split
      · exact ⟨_, rfl⟩
      · split <;> exact ⟨_, rfl⟩
  cases hrun : run source depth fuel w with
  | ok r => exact ⟨r, rfl⟩
  | error e =>
    obtain ⟨_, w', id, level, rest, -, -, herror⟩ := After.start.of_run_eq_error hrun
    obtain ⟨r, hr⟩ := hvisit id level { w' with queue := rest }
    rw [herror] at hr
    cases hr

end Walk

variable {edgeCount : ℕ} {report report' : Report}

/-- An analysis that succeeds reports the files at the end of a search. -/
theorem analyze_ok (hs : source.Reads g) (hedges : g.edges.length ≤ edgeCount)
    (h : analyze source edgeCount path depth = .ok report) :
    ∃ w, Walk.Inv g path depth w ∧ Walk.Listed g path w ∧ w.queue = [] ∧
      report = ⟨path, depth, w.files⟩ := by
  obtain ⟨seeds, hseeds, h⟩ := bind_eq_ok.1 h
  obtain ⟨w, hrun, h⟩ := bind_eq_ok.1 h
  have hbudget := Walk.budget_start_le (g := g) seeds
  obtain ⟨hinv, hlisted, hq⟩ := Walk.run_ok hs (.start (hs.nodesAt hseeds)) (.start seeds)
    (by omega) hrun
  exact ⟨w, hinv, hlisted, hq, (Except.ok.inj h).symm⟩

/-- The files of a report are those within reach. -/
theorem mem_files_iff (hs : source.Reads g) (hedges : g.edges.length ≤ edgeCount)
    (h : analyze source edgeCount path depth = .ok report) {file : String} :
    file ∈ report.files ↔ ∃ k ≤ depth.toNat, ∃ id, g.Reaches path k id ∧ g.Carries id file := by
  obtain ⟨w, hinv, hlisted, hq, rfl⟩ := analyze_ok hs hedges h
  rw [hlisted.mem_iff]
  simp only [hinv.mem_visited_iff hq]
  exact ⟨fun ⟨id, ⟨k, hk, hr⟩, hc⟩ => ⟨k, hk, id, hr, hc⟩,
    fun ⟨k, hk, id, hr, hc⟩ => ⟨id, ⟨k, hk, hr⟩, hc⟩⟩

/-- No file is listed twice. -/
theorem nodup_files (hs : source.Reads g) (hedges : g.edges.length ≤ edgeCount)
    (h : analyze source edgeCount path depth = .ok report) : report.files.Nodup := by
  obtain ⟨w, -, hlisted, -, rfl⟩ := analyze_ok hs hedges h
  exact hlisted.nodup

/-- An analysis that succeeds with more depth succeeds with less, and then lists a
    beginning of the files. -/
theorem analyze_deepen (hs : source.Reads g) (hle : depth.toNat ≤ deeper.toNat)
    (h : analyze source edgeCount path deeper = .ok report') :
    ∃ report, analyze source edgeCount path depth = .ok report ∧
      report.files <+: report'.files := by
  obtain ⟨seeds, hseeds, h⟩ := bind_eq_ok.1 h
  obtain ⟨w', hrun, h⟩ := bind_eq_ok.1 h
  obtain rfl := Except.ok.inj h
  have hstart := hs.nodesAt hseeds
  obtain ⟨w, hw, hpre⟩ := Walk.run_deepen hs hle (.start hstart) (.start hstart)
    ⟨rfl, rfl, [], by simp, by simp⟩ hrun
  exact ⟨⟨path, depth, w.files⟩, bind_eq_ok.2 ⟨seeds, hseeds, bind_eq_ok.2 ⟨w, hw, rfl⟩⟩, hpre⟩

end Ripple.Impact
