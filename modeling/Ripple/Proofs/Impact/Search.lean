import Ripple.Proofs.Except
import Ripple.Proofs.Impact.Graph
import Mathlib.Algebra.Ring.Nat

/-!
# The search of an analysis

A search whose source fails nowhere is a pure one: `Walk.step` is what a visit comes to
then, and `Walk.visit_eq_step` is the link to the visits that are run.

`Walk.Inv` is what holds of the queue and of the visited identifiers whenever the search
looks at its queue. The queue is in the order of its levels, which differ by one at most,
and whoever is taken from it for the first time is taken at the distance that it has
(`Walk.Inv.hops_head`). Whoever lies within the bound and has not been visited is queued, or
one before it on a shortest walk is (`Walk.Inv.exists_queued`). So, when the queue is empty,
what has been visited is what lies within the bound (`Walk.Inv.mem_visited_iff`).
`Walk.Listed` is what holds of the files.

The queue becomes empty: each step lowers `Walk.budget`, the length of the queue and the
number of endpoints of edges that have not been visited.
-/

namespace Ripple.Impact.Walk

variable {ε : Type} {source : Source (Except ε)} {g : Graph} {path : String} {depth : UInt32}
  {id : String} {level : UInt32} {rest : List (String × UInt32)} {w w' : Walk}

/-- A walk that has queued those of some identifiers that have not been visited. -/
def enqueue (level : UInt32) (ids : List String) (w : Walk) : Walk :=
  { w with queue := w.queue ++ (ids.filter (· ∉ w.visited)).map fun id => (id, level) }

/-- What a visit comes to if nothing fails. -/
def step (g : Graph) (depth : UInt32) (id : String) (level : UInt32) (w : Walk) : Walk :=
  if level > depth ∨ id ∈ w.visited then w
  else
    let w := { w with visited := id :: w.visited }
    match g.file? id with
    | none => w
    | some file =>
      if level = depth then w.meet file
      else (w.meet file).enqueue (level + 1) (g.neighbors id)

/-- Some files, and one more unless it is among them. -/
def list (file : Option String) (files : List String) : List String :=
  match file with
  | none => files
  | some path => if path ∈ files then files else files ++ [path]

/-- Meeting a file changes nothing but the files. -/
theorem meet_eq (file : Option String) (w : Walk) :
    w.meet file = { w with files := list file w.files } := by
  cases file with
  | none => rfl
  | some path => by_cases h : path ∈ w.files <;> simp [meet, list, h]

theorem mem_list {file : Option String} {files : List String} {a : String} :
    a ∈ list file files ↔ a ∈ files ∨ file = some a := by
  simp only [list]
  split
  · simp
  · split
    · rename_i hmem
      exact ⟨.inl, fun h => h.elim id fun he => Option.some.inj he ▸ hmem⟩
    · simp [eq_comm]

theorem pairwise_list {R : String → String → Prop} {file : Option String} {files : List String}
    (h : files.Pairwise R) (hnew : ∀ b ∉ files, file = some b → ∀ a ∈ files, R a b) :
    (list file files).Pairwise R := by
  simp only [list]
  split
  · exact h
  · rename_i path
    split
    · exact h
    · rename_i hpath
      refine List.pairwise_append.2 ⟨h, List.pairwise_singleton _ _, fun a ha b hb => ?_⟩
      obtain rfl := List.mem_singleton.1 hb
      exact hnew b hpath rfl a ha

theorem prefix_list (file : Option String) (files : List String) : files <+: list file files := by
  simp only [list]
  split
  · exact List.prefix_rfl
  · split
    · exact List.prefix_rfl
    · exact List.prefix_append _ _

/-- A visit that succeeds is a step through the graph that the source reads. -/
theorem visit_eq_step (hs : source.Reads g) (h : visit source depth id level w = .ok w') :
    w' = step g depth id level w := by
  rw [visit] at h
  rw [step]
  by_cases hskip : level > depth ∨ id ∈ w.visited
  · rw [if_pos hskip] at h ⊢
    exact (Except.ok.inj h).symm
  rw [if_neg hskip] at h ⊢
  obtain ⟨node, hnode, h⟩ := bind_eq_ok.1 h
  rw [← hs.node? hnode]
  cases node with
  | none => exact (Except.ok.inj h).symm
  | some node =>
    by_cases hlast : level = depth
    · simp only [hlast, if_true, Option.map_some] at h ⊢
      exact (Except.ok.inj h).symm
    · simp only [hlast, if_false, Option.map_some] at h ⊢
      obtain ⟨edges, hedges, h⟩ := bind_eq_ok.1 h
      rw [← hs.edgesOf hedges]
      exact (Except.ok.inj h).symm

/-! ## Levels -/

/-- A visit at a level within the bound is made. -/
theorem not_gt_of_toNat_le (h : level.toNat ≤ depth.toNat) : ¬level > depth :=
  UInt32.not_lt.2 (UInt32.le_iff_toNat_le.2 h)

theorem toNat_lt_of_ne (h : level.toNat ≤ depth.toNat) (hne : level ≠ depth) :
    level.toNat < depth.toNat :=
  lt_of_le_of_ne h fun he => hne (UInt32.toNat_inj.1 he)

/-- Before the bound a level has a successor. -/
theorem toNat_succ_of_lt (h : level.toNat < depth.toNat) : (level + 1).toNat = level.toNat + 1 := by
  have := depth.toNat_lt
  rw [UInt32.toNat_add, UInt32.toNat_one, Nat.mod_eq_of_lt (by omega)]

/-! ## The queue -/

/-- `id` has been visited, or is queued with `k` hops. -/
def Due (w : Walk) (id : String) (k : ℕ) : Prop :=
  id ∈ w.visited ∨ ∃ a ∈ w.queue, a.1 = id ∧ a.2.toNat = k

/-- What holds whenever the search looks at its queue. -/
structure Inv (g : Graph) (path : String) (depth : UInt32) (w : Walk) : Prop where
  /-- The queue is in the order of its levels. -/
  ordered : w.queue.Pairwise fun a b => a.2.toNat ≤ b.2.toNat
  /-- The levels differ by one at most. -/
  narrow : ∀ a ∈ w.queue, ∀ b ∈ w.queue, b.2.toNat ≤ a.2.toNat + 1
  /-- No level exceeds the bound. -/
  within : ∀ a ∈ w.queue, a.2.toNat ≤ depth.toNat
  /-- A level is the length of some walk. -/
  reached : ∀ a ∈ w.queue, g.Reaches path a.2.toNat a.1
  /-- The nodes of the file are under way. -/
  seeded : ∀ id, g.Carries id path → w.Due id 0
  /-- What has been visited lies within the bound, and no farther than what is queued. -/
  settled : ∀ id ∈ w.visited, ∃ k ≤ depth.toNat, g.Hops path id k ∧
    ∀ a ∈ w.queue, k ≤ a.2.toNat
  /-- The neighbours of what has been visited before the bound are under way. -/
  closed : ∀ x ∈ w.visited, g.Stored x → ∀ k < depth.toNat, g.Hops path x k →
    ∀ y, g.Adjacent x y → w.Due y (k + 1)

/-- Whoever lies within the bound and has not been visited is queued, or one before it on a
    shortest walk to it is, who has not been visited either and is queued at its distance. -/
theorem Inv.exists_queued {k : ℕ} (h : Inv g path depth w) (hhops : g.Hops path id k)
    (hk : k ≤ depth.toNat) (hv : id ∉ w.visited) :
    ∃ a ∈ w.queue, a.1 ∉ w.visited ∧ g.Hops path a.1 a.2.toNat ∧
      ∃ l, g.Leads a.1 l id ∧ a.2.toNat + l = k := by
  -- Back along the walk, up to the first whose predecessor has been visited.
  obtain ⟨hr, hleast⟩ := hhops
  induction hr with
  | seed hc =>
    obtain ⟨a, ha, rfl, hlevel⟩ := (h.seeded _ hc).resolve_left hv
    exact ⟨a, ha, hv, hlevel ▸ ⟨.seed hc, hleast⟩, 0, .refl, hlevel⟩
  | @step k x y hx hstored hadj ih =>
    have hy {l : ℕ} (hl : g.Reaches path l x) : g.Reaches path (l + 1) y := .step hl hstored hadj
    have hxhops : g.Hops path x k := ⟨hx, fun l hl => Nat.le_of_succ_le_succ (hleast (hy hl))⟩
    by_cases hxv : x ∈ w.visited
    · obtain ⟨a, ha, rfl, hlevel⟩ := (h.closed x hxv hstored k hk hxhops y hadj).resolve_left hv
      exact ⟨a, ha, hv, hlevel ▸ ⟨hy hx, hleast⟩, 0, .refl, hlevel⟩
    · obtain ⟨a, ha, hav, hahops, l, hl, rfl⟩ := ih (by omega) hxv hxhops.2
      exact ⟨a, ha, hav, hahops, l + 1, .step hl hstored hadj, rfl⟩

/-- Whatever lies nearer than the queue has been visited. -/
theorem Inv.mem_visited_of_reaches {k : ℕ} (h : Inv g path depth w) (hr : g.Reaches path k id)
    (hk : k ≤ depth.toNat) (hq : ∀ a ∈ w.queue, k < a.2.toNat) : id ∈ w.visited := by
  by_contra hv
  obtain ⟨l, hl, hhops⟩ := hr.hops
  obtain ⟨a, ha, -, -, m, -, hlevel⟩ := h.exists_queued hhops (hl.trans hk) hv
  have := hq a ha
  omega

/-- At the end of a search, what has been visited is what lies within the bound. -/
theorem Inv.mem_visited_iff (h : Inv g path depth w) (hq : w.queue = []) :
    id ∈ w.visited ↔ ∃ k ≤ depth.toNat, g.Reaches path k id := by
  constructor
  · intro hv
    obtain ⟨k, hk, hhops, _⟩ := h.settled id hv
    exact ⟨k, hk, hhops.1⟩
  · rintro ⟨k, hk, hr⟩
    exact h.mem_visited_of_reaches hr hk (by simp [hq])

variable (hq : w.queue = (id, level) :: rest)

include hq

/-- What is under way stays so when the head of the queue is taken and marked. -/
theorem Due.next {x : String} {k : ℕ} (h : w.Due x k) (hv : id ∈ w'.visited)
    (hvisited : w.visited ⊆ w'.visited) (hrest : rest ⊆ w'.queue) : w'.Due x k := by
  rcases h with hx | ⟨a, ha, rfl, hlevel⟩
  · exact .inl (hvisited hx)
  · rw [hq] at ha
    rcases List.mem_cons.1 ha with rfl | ha
    · exact .inl hv
    · exact .inr ⟨a, hrest ha, rfl, hlevel⟩

theorem Inv.head_le (h : Inv g path depth w) : level.toNat ≤ depth.toNat :=
  h.within (id, level) (by simp [hq])

theorem Inv.level_le (h : Inv g path depth w) : ∀ a ∈ rest, level.toNat ≤ a.2.toNat := by
  have := h.ordered
  rw [hq, List.pairwise_cons] at this
  exact this.1

/-- Whoever is taken from the queue for the first time is taken at its distance. -/
theorem Inv.hops_head (h : Inv g path depth w) (hv : id ∉ w.visited) :
    g.Hops path id level.toNat := by
  have hmem : (id, level) ∈ w.queue := by simp [hq]
  refine ⟨h.reached _ hmem, fun k hk => ?_⟩
  by_contra hlt
  have hle := h.head_le hq
  -- A shorter walk would have been taken before this entry was reached.
  refine hv (h.mem_visited_of_reaches hk (by omega) fun a ha => ?_)
  rw [hq] at ha
  rcases List.mem_cons.1 ha with rfl | ha
  · exact Nat.lt_of_not_le hlt
  · have := h.level_le hq a ha
    omega

/-- Who has been visited already is dropped from the queue. -/
theorem Inv.skip (h : Inv g path depth w) (hv : id ∈ w.visited) :
    Inv g path depth { w with queue := rest } := by
  have hsub : ∀ a ∈ rest, a ∈ w.queue := fun a ha => hq ▸ List.mem_cons_of_mem _ ha
  have hdue {x : String} {k : ℕ} (hx : w.Due x k) : Due { w with queue := rest } x k :=
    hx.next hq hv (List.Subset.refl _) (List.Subset.refl _)
  exact {
    ordered := (List.pairwise_cons.1 (hq ▸ h.ordered)).2
    narrow := fun a ha b hb => h.narrow a (hsub a ha) b (hsub b hb)
    within := fun a ha => h.within a (hsub a ha)
    reached := fun a ha => h.reached a (hsub a ha)
    seeded := fun x hx => hdue (h.seeded x hx)
    settled := fun x hx =>
      let ⟨k, hk, hhops, hle⟩ := h.settled x hx
      ⟨k, hk, hhops, fun a ha => hle a (hsub a ha)⟩
    closed := fun x hx hs k hk hhops y hadj => hdue (h.closed x hx hs k hk hhops y hadj) }

/-- Who has not been visited yet is marked, and queues some neighbours one level up: all
    that are not under way, unless it is no stored node or lies at the bound. -/
theorem Inv.arrive (h : Inv g path depth w) (hv : id ∉ w.visited) (fresh files : List String)
    (hfresh : ∀ y ∈ fresh, g.Stored id ∧ g.Adjacent id y ∧ level.toNat < depth.toNat)
    (hall : g.Stored id → level.toNat < depth.toNat → ∀ y, g.Adjacent id y →
      y ∈ id :: w.visited ∨ y ∈ fresh) :
    Inv g path depth ⟨rest ++ fresh.map fun y => (y, level + 1), id :: w.visited, files⟩ := by
  have hhops := h.hops_head hq hv
  have hmem : (id, level) ∈ w.queue := by simp [hq]
  have hsub : ∀ a ∈ rest, a ∈ w.queue := fun a ha => hq ▸ List.mem_cons_of_mem _ ha
  have hsucc : ∀ y ∈ fresh, (level + 1).toNat = level.toNat + 1 := fun y hy =>
    toNat_succ_of_lt (hfresh y hy).2.2
  -- All levels of the new queue are the one that has been taken or the next one.
  have hlevels : ∀ a ∈ rest ++ fresh.map fun y => (y, level + 1),
      level.toNat ≤ a.2.toNat ∧ a.2.toNat ≤ level.toNat + 1 := by
    intro a ha
    rcases List.mem_append.1 ha with ha | ha
    · exact ⟨h.level_le hq a ha, h.narrow _ hmem a (hsub a ha)⟩
    · obtain ⟨y, hy, rfl⟩ := List.mem_map.1 ha
      rw [hsucc y hy]
      exact ⟨Nat.le_succ _, le_rfl⟩
  have hdue {x : String} {k : ℕ} (hx : w.Due x k) :
      Due ⟨rest ++ fresh.map fun y => (y, level + 1), id :: w.visited, files⟩ x k :=
    hx.next hq List.mem_cons_self (List.subset_cons_self _ _) (List.subset_append_left _ _)
  exact {
    ordered := by
      refine List.pairwise_append.2 ⟨(List.pairwise_cons.1 (hq ▸ h.ordered)).2,
        List.pairwise_map.2 (List.pairwise_of_forall fun _ _ => le_rfl), ?_⟩
      intro a ha b hb
      obtain ⟨y, hy, rfl⟩ := List.mem_map.1 hb
      rw [hsucc y hy]
      exact (hlevels a (List.mem_append_left _ ha)).2
    narrow := fun a ha b hb => by
      have := hlevels a ha
      have := hlevels b hb
      omega
    within := by
      intro a ha
      rcases List.mem_append.1 ha with ha | ha
      · exact h.within a (hsub a ha)
      · obtain ⟨y, hy, rfl⟩ := List.mem_map.1 ha
        rw [hsucc y hy]
        exact (hfresh y hy).2.2
    reached := by
      intro a ha
      rcases List.mem_append.1 ha with ha | ha
      · exact h.reached a (hsub a ha)
      · obtain ⟨y, hy, rfl⟩ := List.mem_map.1 ha
        obtain ⟨hstored, hadj, _⟩ := hfresh y hy
        rw [hsucc y hy]
        exact .step hhops.1 hstored hadj
    seeded := fun x hx => hdue (h.seeded x hx)
    settled := by
      intro x hx
      rcases List.mem_cons.1 hx with rfl | hx
      · exact ⟨level.toNat, h.within _ hmem, hhops, fun a ha => (hlevels a ha).1⟩
      · obtain ⟨k, hk, hkhops, hle⟩ := h.settled x hx
        exact ⟨k, hk, hkhops, fun a ha => (hle _ hmem).trans (hlevels a ha).1⟩
    closed := by
      intro x hx hstored k hk hkhops y hadj
      rcases List.mem_cons.1 hx with rfl | hx
      · -- The node that is visited now: its distance is the level at which it was taken.
        obtain rfl : k = level.toNat := hkhops.unique hhops
        rcases hall hstored hk y hadj with hy | hy
        · exact .inl hy
        · exact .inr ⟨(y, level + 1), List.mem_append_right _ (List.mem_map_of_mem hy), rfl,
            hsucc y hy⟩
      · exact hdue (h.closed x hx hstored k hk hkhops y hadj) }

/-- A step keeps what holds of the queue. -/
theorem Inv.step (h : Inv g path depth w) :
    Inv g path depth (step g depth id level { w with queue := rest }) := by
  have hle := h.head_le hq
  rw [Walk.step]
  by_cases hv : id ∈ w.visited
  · rw [if_pos (.inr hv)]
    exact h.skip hq hv
  rw [if_neg (not_or.2 ⟨not_gt_of_toNat_le hle, hv⟩)]
  -- Without new entries the queue is the rest of the old one.
  have hnone (files : List String) (hno : g.Stored id → ¬level.toNat < depth.toNat) :
      Inv g path depth ⟨rest, id :: w.visited, files⟩ := by
    simpa using h.arrive hq hv [] files (by simp) fun hstored hlt => absurd hlt (hno hstored)
  cases hfile : g.file? id with
  | none => exact hnone w.files fun hstored => absurd hstored (Graph.file?_eq_none_iff.1 hfile)
  | some file =>
    have hstored := Graph.stored_of_file? hfile
    by_cases hlast : level = depth
    · simp only [hlast, if_true]
      rw [meet_eq]
      exact hnone _ fun _ => by rw [hlast]; exact lt_irrefl _
    · have hlt := toNat_lt_of_ne hle hlast
      simp only [hlast, if_false]
      rw [meet_eq]
      refine h.arrive hq hv _ _ (fun y hy => ?_) fun _ _ y hadj => ?_
      · have := (List.mem_filter.1 hy).1
        exact ⟨hstored, Graph.mem_neighbors.1 this, hlt⟩
      · by_cases hy : y ∈ id :: w.visited
        · exact .inl hy
        · exact .inr (List.mem_filter.2 ⟨Graph.mem_neighbors.2 hadj, by simpa using hy⟩)

omit hq in
/-- At the start only the identifiers of the seeds matter. -/
theorem start_eq (seeds : List Node) :
    start seeds = ⟨(seeds.map Node.id).map fun id => (id, 0), [], []⟩ := by
  rw [start, List.map_map]
  rfl

omit hq in
/-- At the start the nodes of the file are queued, and nothing has been visited. -/
theorem Inv.start {seeds : List Node} (hs : seeds.map Node.id = g.seeds path) :
    Inv g path depth (.start seeds) := by
  have hzero : ∀ a ∈ (Walk.start seeds).queue, a.2.toNat = 0 ∧ g.Carries a.1 path := by
    intro a ha
    obtain ⟨node, hnode, rfl⟩ := List.mem_map.1 ha
    exact ⟨rfl, Graph.mem_seeds.1 (hs ▸ List.mem_map_of_mem hnode)⟩
  exact {
    ordered := List.pairwise_map.2 (List.pairwise_of_forall fun _ _ => le_rfl)
    narrow := fun a _ b hb => by rw [(hzero b hb).1]; exact Nat.zero_le _
    within := fun a ha => by rw [(hzero a ha).1]; exact Nat.zero_le _
    reached := fun a ha => by rw [(hzero a ha).1]; exact .seed (hzero a ha).2
    seeded := fun id hc => by
      rw [← Graph.mem_seeds, ← hs] at hc
      obtain ⟨node, hnode, rfl⟩ := List.mem_map.1 hc
      exact .inr ⟨(node.id, 0), List.mem_map_of_mem hnode, rfl, rfl⟩
    settled := fun id hid => absurd hid List.not_mem_nil
    closed := fun id hid => absurd hid List.not_mem_nil }

/-! ## The files -/

omit hq

/-- What holds of the files whenever the search looks at its queue. -/
structure Listed (g : Graph) (path : String) (w : Walk) : Prop where
  /-- No file is listed twice. -/
  nodup : w.files.Nodup
  /-- The files are those of the nodes that have been visited. -/
  mem_iff {file : String} : file ∈ w.files ↔ ∃ id ∈ w.visited, g.Carries id file
  /-- The files are in the order of their distances. -/
  sorted : w.files.Pairwise fun a b => ∀ k l, g.FileHops path a k → g.FileHops path b l → k ≤ l

theorem Listed.start (seeds : List Node) : Listed g path (.start seeds) :=
  ⟨.nil, by simp [Walk.start], .nil⟩

/-- A step over who has been visited changes nothing. -/
theorem step_of_mem (hv : id ∈ w.visited) : step g depth id level w = w := if_pos (.inr hv)

/-- A step to who has not been visited marks it and meets its file. -/
theorem step_of_not_mem (hle : level.toNat ≤ depth.toNat) (hv : id ∉ w.visited) :
    (step g depth id level w).visited = id :: w.visited ∧
      (step g depth id level w).files = list ((g.file? id).getD none) w.files := by
  rw [step, if_neg (not_or.2 ⟨not_gt_of_toNat_le hle, hv⟩)]
  cases g.file? id with
  | none => exact ⟨rfl, rfl⟩
  | some file =>
    by_cases hlast : level = depth
    · simp [hlast, meet_eq]
    · simp [hlast, meet_eq, enqueue]

/-- What has been met lies no farther than who is visited now for the first time. -/
theorem Listed.fileHops_le {a : String} {k : ℕ} (hl : Listed g path w) (h : Inv g path depth w)
    (hq : w.queue = (id, level) :: rest) (ha : a ∈ w.files) (hk : g.FileHops path a k) :
    k ≤ level.toNat := by
  obtain ⟨x, hx, hc⟩ := hl.mem_iff.1 ha
  obtain ⟨l, _, hhops, hle⟩ := h.settled x hx
  exact (hk.2 ⟨x, hhops.1, hc⟩).trans (hle (id, level) (by simp [hq]))

/-- A file that has not been met lies no nearer than who is visited now. -/
theorem Listed.le_fileHops {a : String} {k : ℕ} (hl : Listed g path w) (h : Inv g path depth w)
    (hq : w.queue = (id, level) :: rest) (ha : a ∉ w.files) (hk : g.FileHops path a k) :
    level.toNat ≤ k := by
  obtain ⟨⟨x, hr, hc⟩, _⟩ := hk
  by_contra hlt
  have hle := h.head_le hq
  refine ha (hl.mem_iff.2 ⟨x, h.mem_visited_of_reaches hr (by omega) fun b hb => ?_, hc⟩)
  rw [hq] at hb
  rcases List.mem_cons.1 hb with rfl | hb
  · exact Nat.lt_of_not_le hlt
  · have := h.level_le hq b hb
    omega

/-- A step keeps what holds of the files. -/
theorem Listed.step (hl : Listed g path w) (h : Inv g path depth w)
    (hq : w.queue = (id, level) :: rest) :
    Listed g path (step g depth id level { w with queue := rest }) := by
  have hle := h.head_le hq
  by_cases hv : id ∈ w.visited
  · rw [step_of_mem (by exact hv)]
    exact ⟨hl.nodup, hl.mem_iff, hl.sorted⟩
  obtain ⟨hvisited, hfiles⟩ := step_of_not_mem (g := g) (w := { w with queue := rest }) hle hv
  dsimp only at hvisited hfiles
  have hmem {file : String} : (g.file? id).getD none = some file ↔ g.Carries id file := by
    rw [Graph.carries_iff]
    cases g.file? id <;> simp
  refine ⟨?_, fun {file} => ?_, ?_⟩
  · rw [hfiles]
    exact pairwise_list hl.nodup fun b hb _ a ha hab => hb (hab ▸ ha)
  · rw [hfiles, hvisited, mem_list, hmem, hl.mem_iff]
    simp only [List.mem_cons, exists_eq_or_imp, or_comm]
  · rw [hfiles]
    exact pairwise_list hl.sorted fun b hb _ a ha k l hk hl' =>
      (hl.fileHops_le h hq ha hk).trans (hl.le_fileHops h hq hb hl')

/-! ## The end -/

/-- How many endpoints of an edge have not been visited. -/
def openEnds (visited : List String) (edge : EdgeRow) : ℕ :=
  (if edge.source ∈ visited then 0 else 1) + if edge.target ∈ visited then 0 else 1

/-- The steps that a search can take at most: one for each entry of the queue, and one for
    each endpoint of an edge that has not been visited, as only a visit of it can queue the
    other one. -/
def budget (g : Graph) (w : Walk) : ℕ := w.queue.length + (g.edges.map (openEnds w.visited)).sum

theorem budget_start_le (seeds : List Node) :
    budget g (.start seeds) ≤ seeds.length + 2 * g.edges.length := by
  have hends : ∀ edges : List EdgeRow, (edges.map (openEnds [])).sum = 2 * edges.length := by
    intro edges
    induction edges with
    | nil => rfl
    | cons edge edges ih => rw [List.map_cons, List.sum_cons, ih]; simp [openEnds]; omega
  simp [budget, Walk.start, hends]

theorem openEnds_cons_le (id : String) (visited : List String) (edge : EdgeRow) :
    openEnds (id :: visited) edge ≤ openEnds visited edge := by
  simp only [openEnds, List.mem_cons]
  grind

theorem openEnds_cons_lt {visited : List String} {edge : EdgeRow} (hv : id ∉ visited)
    (ht : edge.touches id) : openEnds (id :: visited) edge < openEnds visited edge := by
  simp only [EdgeRow.touches, Bool.or_eq_true, beq_iff_eq] at ht
  simp only [openEnds, List.mem_cons]
  grind

/-- Who is visited for the first time closes an end of each edge that touches it. -/
theorem length_touching_add_sum_le {visited : List String} (hv : id ∉ visited)
    (edges : List EdgeRow) :
    (edges.filter (·.touches id)).length + (edges.map (openEnds (id :: visited))).sum ≤
      (edges.map (openEnds visited)).sum := by
  induction edges with
  | nil => exact le_rfl
  | cons edge edges ih =>
    simp only [List.map_cons, List.sum_cons]
    by_cases ht : edge.touches id
    · -- The edge touches the node, so that one of its ends is open before and closed after.
      have := openEnds_cons_lt hv ht
      rw [List.filter_cons_of_pos (p := fun edge : EdgeRow => edge.touches id) ht, List.length_cons]
      omega
    · have := openEnds_cons_le id visited edge
      rw [List.filter_cons_of_neg (p := fun edge : EdgeRow => edge.touches id) ht]
      omega

theorem budget_step_lt (hq : w.queue = (id, level) :: rest) (depth : UInt32) :
    budget g (step g depth id level { w with queue := rest }) < budget g w := by
  have hlength : w.queue.length = rest.length + 1 := by rw [hq, List.length_cons]
  rw [step]
  split
  · simp only [budget]
    omega
  · rename_i hskip
    have hv : id ∉ w.visited := fun hv => hskip (.inr hv)
    have hends := length_touching_add_sum_le hv g.edges
    split
    · simp only [budget]
      omega
    · split
      · simp only [budget, meet_eq]
        omega
      · -- What is queued is paid for by the ends that the visit closes.
        have hfresh := List.length_filter_le (· ∉ id :: w.visited) (g.neighbors id)
        have hneighbors : (g.neighbors id).length = (g.edges.filter (·.touches id)).length := by
          rw [Graph.neighbors, List.length_map]
        simp only [budget, meet_eq, enqueue, List.length_append, List.length_map]
        omega

end Ripple.Impact.Walk
