import Ripple.Proofs.Impact.Search

/-!
# The iterations of a search

`Walk.After` is an iteration of the loop of a search: the walk as it is when the loop looks
at its queue, with the entries that have been taken until then. A run goes on from each of
its iterations (`Walk.After.run`) and comes to its end at one (`Walk.After.of_run_eq_ok`),
unless the visit fails that one begins (`Walk.After.of_run_eq_error`).

So what holds at the beginning and is kept by each visit holds at every iteration and at the
end, and that is how `Walk.Inv` and `Walk.Listed` do (`Walk.After.inv`, `Walk.After.listed`).
-/

namespace Ripple.Impact.Walk

variable {ε : Type} {source : Source (Except ε)} {g : Graph} {path : String} {depth : UInt32}
  {taken : List (String × UInt32)} {first w w' : Walk}

/-- From the walk `first` the loop has come to another one when it looks at its queue, after it
    has taken some entries, in that order. -/
inductive After (source : Source (Except ε)) (depth : UInt32) (first : Walk) :
    List (String × UInt32) → Walk → Prop
  | start : After source depth first [] first
  | next {taken rest : List (String × UInt32)} {id : String} {level : UInt32} {w w' : Walk} :
      After source depth first taken w → w.queue = (id, level) :: rest →
      visit source depth id level { w with queue := rest } = .ok w' →
      After source depth first (taken ++ [(id, level)]) w'

/-! ## Runs -/

/-- A run goes on from each of its iterations. -/
theorem After.run (h : After source depth first taken w) (fuel : ℕ) :
    run source depth (taken.length + fuel) first = run source depth fuel w := by
  induction h generalizing fuel with
  | start => rw [List.length_nil, Nat.zero_add]
  | @next taken rest id level w w' _ hq hvisit ih =>
    calc Walk.run source depth ((taken ++ [(id, level)]).length + fuel) first
        = Walk.run source depth (taken.length + (fuel + 1)) first := by
          rw [List.length_append, List.length_singleton, Nat.add_assoc, Nat.add_comm 1]
      _ = Walk.run source depth (fuel + 1) w := ih (fuel + 1)
      _ = Walk.run source depth fuel w' := by simp only [Walk.run, hq, hvisit, ok_bind]

/-- A run that succeeds ends at an iteration, at which the queue is empty or no step is left. -/
theorem After.of_run_eq_ok (h : After source depth first taken w) {fuel : ℕ}
    (hrun : Walk.run source depth fuel w = .ok w') :
    ∃ taken', After source depth first taken' w' ∧
      (w'.queue = [] ∨ taken'.length = taken.length + fuel) := by
  induction fuel generalizing taken w with
  | zero =>
    obtain rfl : w = w' := Except.ok.inj hrun
    exact ⟨taken, h, .inr rfl⟩
  | succ fuel ih =>
    rw [Walk.run] at hrun
    split at hrun
    · rename_i hq
      obtain rfl : w = w' := Except.ok.inj hrun
      exact ⟨taken, h, .inl hq⟩
    · rename_i id level rest hq
      obtain ⟨next, hvisit, hrun⟩ := bind_eq_ok.1 hrun
      obtain ⟨taken', hafter, hend⟩ := ih (h.next hq hvisit) hrun
      refine ⟨taken', hafter, hend.imp_right fun hlength => ?_⟩
      rw [hlength, List.length_append, List.length_singleton, Nat.add_assoc, Nat.add_comm 1]

/-- A run that fails does so at the visit that an iteration begins. -/
theorem After.of_run_eq_error (h : After source depth first taken w) {fuel : ℕ} {e : ε}
    (hrun : Walk.run source depth fuel w = .error e) :
    ∃ taken' w' id level rest, After source depth first taken' w' ∧
      w'.queue = (id, level) :: rest ∧
      visit source depth id level { w' with queue := rest } = .error e := by
  induction fuel generalizing taken w with
  | zero => cases hrun
  | succ fuel ih =>
    rw [Walk.run] at hrun
    split at hrun
    · cases hrun
    · rename_i id level rest hq
      cases hvisit : visit source depth id level { w with queue := rest } with
      | ok next =>
        rw [hvisit, ok_bind] at hrun
        exact ih (h.next hq hvisit) hrun
      | error e' =>
        rw [hvisit, error_bind] at hrun
        exact ⟨taken, w, id, level, rest, h, hq, hvisit.trans hrun⟩

/-! ## What visits keep -/

/-- What has been taken and what can still be taken do not exceed the budget. -/
theorem After.length_add_budget_le (hs : source.Reads g)
    (h : After source depth first taken w) : taken.length + budget g w ≤ budget g first := by
  induction h with
  | start => rw [List.length_nil, Nat.zero_add]
  | next _ hq hvisit ih =>
    obtain rfl := visit_eq_step hs hvisit
    have := budget_step_lt (g := g) hq depth
    rw [List.length_append, List.length_singleton]
    omega

theorem After.inv (hs : source.Reads g) (hfirst : Inv g path depth first)
    (h : After source depth first taken w) : Inv g path depth w := by
  induction h with
  | start => exact hfirst
  | next _ hq hvisit ih =>
    obtain rfl := visit_eq_step hs hvisit
    exact ih.step hq

theorem After.listed (hs : source.Reads g) (hfirst : Inv g path depth first)
    (hl : Listed g path first) (h : After source depth first taken w) : Listed g path w := by
  induction h with
  | start => exact hl
  | next hafter hq hvisit ih =>
    obtain rfl := visit_eq_step hs hvisit
    exact ih.step (hafter.inv hs hfirst) hq

/-- A search that does not fail ends with an empty queue, if it may take enough steps. -/
theorem run_ok (hs : source.Reads g) {fuel : ℕ} (h : Inv g path depth w) (hl : Listed g path w)
    (hfuel : budget g w ≤ fuel) (hrun : run source depth fuel w = .ok w') :
    Inv g path depth w' ∧ Listed g path w' ∧ w'.queue = [] := by
  obtain ⟨taken, hafter, hend⟩ := After.start.of_run_eq_ok hrun
  refine ⟨hafter.inv hs h, hafter.listed hs h hl, ?_⟩
  rcases hend with hq | hlength
  · exact hq
  · -- The steps have been taken, and with them the budget.
    have hbudget := hafter.length_add_budget_le hs
    rw [List.length_nil] at hlength
    refine List.eq_nil_of_length_eq_zero ?_
    rw [budget] at hbudget
    omega

end Ripple.Impact.Walk
