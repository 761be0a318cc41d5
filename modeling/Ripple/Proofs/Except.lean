import Mathlib.Data.List.Forall2
import Mathlib.Data.List.Perm.Basic

/-!
# Computations that can fail

A computation of several steps succeeds if all of its steps do (`bind_eq_ok`), and one
that runs over a list succeeds if it does on each of its members (`mapM_eq_ok`).

Two computations are alike if both succeed, with results that are related, or both fail
(`Alike`). Those over a list in two orders are (`alike_mapM_of_perm`).
-/

namespace Ripple

variable {ε ε' α β : Type}

@[simp] theorem ok_bind (a : α) (f : α → Except ε β) : Except.ok a >>= f = f a := rfl

@[simp] theorem error_bind (e : ε) (f : α → Except ε β) : Except.error e >>= f = .error e := rfl

theorem bind_eq_ok {x : Except ε α} {f : α → Except ε β} {b : β} :
    x >>= f = .ok b ↔ ∃ a, x = .ok a ∧ f a = .ok b := by
  cases x <;> simp

theorem mapError_eq_ok {f : ε → ε'} {x : Except ε α} {a : α} :
    x.mapError f = .ok a ↔ x = .ok a := by
  cases x <;> simp [Except.mapError]

theorem map_eq_ok {f : α → β} {x : Except ε α} {b : β} :
    x.map f = .ok b ↔ ∃ a, x = .ok a ∧ f a = b := by
  cases x <;> simp [Except.map]

theorem map_eq_error {f : α → β} {x : Except ε α} {e : ε} :
    x.map f = .error e ↔ x = .error e := by
  cases x <;> simp [Except.map]

/-- A list is gone through successfully if each of its members is. -/
theorem mapM_eq_ok {f : α → Except ε β} {as : List α} {bs : List β} :
    as.mapM f = .ok bs ↔ List.Forall₂ (fun a b => f a = .ok b) as bs := by
  induction as generalizing bs with
  | nil => simp [pure, Except.pure, eq_comm]
  | cons a as ih =>
    simp only [List.mapM_cons, bind_eq_ok, List.forall₂_cons_left_iff, ih]
    constructor
    · rintro ⟨b, hb, bs', hbs, h⟩
      exact ⟨b, bs', hb, hbs, (Except.ok.inj h).symm⟩
    · rintro ⟨b, bs', hb, hbs, rfl⟩
      exact ⟨b, hb, bs', hbs, rfl⟩

theorem exists_mapM_ok_iff {f : α → Except ε β} {as : List α} :
    (∃ bs, as.mapM f = .ok bs) ↔ ∀ a ∈ as, ∃ b, f a = .ok b := by
  simp only [mapM_eq_ok]
  constructor
  · rintro ⟨bs, hbs⟩
    induction hbs with
    | nil => simp
    | cons hb _ ih => exact List.forall_mem_cons.2 ⟨⟨_, hb⟩, ih⟩
  · intro h
    induction as with
    | nil => exact ⟨[], .nil⟩
    | cons a as ih =>
      obtain ⟨b, hb⟩ := h a List.mem_cons_self
      obtain ⟨bs, hbs⟩ := ih fun a ha => h a (List.mem_cons_of_mem _ ha)
      exact ⟨b :: bs, .cons hb hbs⟩

/-- A list is gone through up to the first of its members that fails. -/
theorem mapM_eq_error {f : α → Except ε β} {as : List α} {e : ε} :
    as.mapM f = .error e ↔ ∃ before a after, as = before ++ a :: after ∧
      (∀ b ∈ before, ∃ c, f b = .ok c) ∧ f a = .error e := by
  induction as with
  | nil => simp [pure, Except.pure]
  | cons a as ih =>
    rw [List.mapM_cons]
    cases h : f a with
    | error e' =>
      rw [error_bind, Except.error.injEq]
      constructor
      · rintro rfl
        exact ⟨[], a, as, rfl, by simp, h⟩
      · rintro ⟨before, a', after, has, hbefore, ha'⟩
        -- Nothing comes before the first member, as it fails.
        cases before with
        | nil =>
          obtain ⟨rfl, -⟩ := List.cons.inj has
          exact Except.error.inj (h.symm.trans ha')
        | cons b before =>
          obtain ⟨rfl, -⟩ := List.cons.inj has
          obtain ⟨c, hc⟩ := hbefore a List.mem_cons_self
          rw [h] at hc
          cases hc
    | ok c =>
      have hrest : (Except.ok c >>= fun c => as.mapM f >>= fun cs => pure (c :: cs)) = .error e ↔
          as.mapM f = .error e := by
        cases as.mapM f <;> simp [pure, Except.pure]
      rw [hrest, ih]
      constructor
      · rintro ⟨before, a', after, rfl, hbefore, ha'⟩
        exact ⟨a :: before, a', after, rfl, List.forall_mem_cons.2 ⟨⟨c, h⟩, hbefore⟩, ha'⟩
      · rintro ⟨before, a', after, has, hbefore, ha'⟩
        cases before with
        | nil =>
          obtain ⟨rfl, -⟩ := List.cons.inj has
          rw [h] at ha'
          cases ha'
        | cons b before =>
          obtain ⟨rfl, rfl⟩ := List.cons.inj has
          exact ⟨before, a', after, rfl, (List.forall_mem_cons.1 hbefore).2, ha'⟩

/-- What fails on the first members of a list fails in the same way on all of them. -/
theorem mapM_eq_error_of_take {f : α → Except ε β} {as : List α} {n : ℕ} {e : ε}
    (h : (as.take n).mapM f = .error e) : as.mapM f = .error e := by
  rw [← List.take_append_drop n as, List.mapM_append, h, error_bind]

/-- Each result of a list is that of one of its members. -/
theorem exists_of_forall₂ {r : α → β → Prop} {as : List α} {bs : List β} {b : β}
    (h : List.Forall₂ r as bs) (hb : b ∈ bs) : ∃ a ∈ as, r a b := by
  induction h with
  | nil => exact absurd hb List.not_mem_nil
  | cons hab _ ih =>
    rcases List.mem_cons.1 hb with rfl | hb
    · exact ⟨_, List.mem_cons_self, hab⟩
    · obtain ⟨a, ha, hab⟩ := ih hb
      exact ⟨a, List.mem_cons_of_mem _ ha, hab⟩

/-- A computation fails if it does not succeed. -/
theorem exists_error_iff {x : Except ε α} : (∃ e, x = .error e) ↔ ¬∃ a, x = .ok a := by
  cases x <;> simp

/-- What the results of a list share with its members, the lists share. -/
theorem map_eq_of_forall₂ {γ : Type} {r : α → β → Prop} {f : α → γ} {g : β → γ} {as : List α}
    {bs : List β} (hr : ∀ a b, r a b → g b = f a) (h : List.Forall₂ r as bs) :
    bs.map g = as.map f := by
  induction h with
  | nil => rfl
  | cons hab _ ih => rw [List.map_cons, List.map_cons, hr _ _ hab, ih]

/-- To change the results of a list is to change that of each member. -/
theorem map_mapM {γ : Type} (f : α → Except ε β) (g : β → γ) (as : List α) :
    (as.mapM f).map (List.map g) = as.mapM fun a => (f a).map g := by
  induction as with
  | nil => rfl
  | cons a as ih =>
    rw [List.mapM_cons, List.mapM_cons, ← ih]
    cases f a with
    | error e => rfl
    | ok b => cases as.mapM f <;> rfl

/-- A computation succeeds if one does that is the same but for its result. -/
theorem exists_ok_of_map_eq {γ : Type} {x : Except ε α} {y : Except ε β} {f : α → γ} {g : β → γ}
    (h : x.map f = y.map g) (hx : ∃ a, x = .ok a) : ∃ b, y = .ok b := by
  obtain ⟨a, rfl⟩ := hx
  cases y with
  | error e => cases h
  | ok b => exact ⟨b, rfl⟩

/-- A computation fails if one does that is the same but for its result. -/
theorem exists_error_of_map_eq {γ : Type} {x : Except ε α} {y : Except ε β} {f : α → γ} {g : β → γ}
    (h : x.map f = y.map g) (hx : ∃ e, x = .error e) : ∃ e, y = .error e := by
  obtain ⟨e, rfl⟩ := hx
  cases y with
  | error e' => exact ⟨e', rfl⟩
  | ok b => cases h

/-! ## Alike computations -/

/-- Two computations succeed, with results that are related, or both fail. -/
inductive Alike (r : α → β → Prop) : Except ε α → Except ε' β → Prop
  | ok {a : α} {b : β} : r a b → Alike r (.ok a) (.ok b)
  | error {e : ε} {e' : ε'} : Alike r (.error e) (.error e')

namespace Alike

variable {r : α → β → Prop} {x : Except ε α} {y : Except ε' β}

theorem of_ok_iff (hok : (∃ a, x = .ok a) ↔ ∃ b, y = .ok b)
    (h : ∀ a b, x = .ok a → y = .ok b → r a b) : Alike r x y := by
  cases x with
  | error e =>
    cases y with
    | error e' => exact .error
    | ok b => exact absurd (hok.2 ⟨b, rfl⟩) (by simp)
  | ok a =>
    obtain ⟨b, rfl⟩ := hok.1 ⟨a, rfl⟩
    exact .ok (h a b rfl rfl)

/-- Computations are alike if they are after their results have been changed. -/
theorem of_map {α' β' : Type} {r : α' → β' → Prop} {f : α → α'} {g : β → β'}
    (h : Alike r (x.map f) (y.map g)) : Alike (fun a b => r (f a) (g b)) x y := by
  cases x <;> cases y <;> cases h
  · exact .error
  · exact .ok ‹_›

end Alike

/-- It does not matter in which order a list is gone through. -/
theorem alike_mapM_of_perm {as as' : List α} (f : α → Except ε β) (h : as.Perm as') :
    Alike List.Perm (as.mapM f) (as'.mapM f) := by
  refine .of_ok_iff ?_ fun bs bs' hbs hbs' => ?_
  · simp only [exists_mapM_ok_iff, h.mem_iff]
  · rw [mapM_eq_ok] at hbs hbs'
    -- The results of the second list in the order of the first are those of the first.
    obtain ⟨cs, hcs, hperm⟩ := List.perm_comp_forall₂ h hbs'
    obtain rfl : bs = cs := by
      rw [← mapM_eq_ok] at hbs hcs
      exact Except.ok.inj (hbs.symm.trans hcs)
    exact hperm

end Ripple
