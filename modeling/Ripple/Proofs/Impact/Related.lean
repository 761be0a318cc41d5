import Ripple.Impact.Analysis

/-!
# Analyses by related sources

An analysis is the same for all sources, whatever the computations are in which they answer. So a
relation between computations of two kinds that composition keeps (`Composes`) holds between an
analysis by one source and that by another one if it holds between their answers
(`Composes.analyze`).
-/

namespace Ripple.Impact

variable {m m' : Type → Type} [Monad m] [Monad m']

/-- A relation between computations of two kinds that composition keeps. -/
structure Composes (r : ∀ α : Type, m α → m' α → Prop) : Prop where
  pure {α : Type} (value : α) : r α (pure value) (pure value)
  bind {α β : Type} {a : m α} {a' : m' α} {f : α → m β} {f' : α → m' β} (ha : r α a a')
    (hf : ∀ value, r β (f value) (f' value)) : r β (a >>= f) (a' >>= f')

/-- Sources with related answers. -/
structure Source.Relates (r : ∀ α : Type, m α → m' α → Prop) (source : Source m)
    (source' : Source m') : Prop where
  nodesAt (path : String) : r _ (source.nodesAt path) (source'.nodesAt path)
  node? (id : String) : r _ (source.node? id) (source'.node? id)
  edgesOf (id : String) : r _ (source.edgesOf id) (source'.edgesOf id)

namespace Composes

variable {r : ∀ α : Type, m α → m' α → Prop} {source : Source m} {source' : Source m'}

theorem visit (hr : Composes r) (hs : source.Relates r source') (depth : UInt32) (id : String)
    (level : UInt32) (w : Walk) :
    r _ (w.visit source depth id level) (w.visit source' depth id level) := by
  simp only [Walk.visit]
  split
  · exact hr.pure w
  · refine hr.bind (hs.node? id) fun node => ?_
    cases node with
    | none => exact hr.pure _
    | some node =>
      dsimp only
      split
      · exact hr.pure _
      · exact hr.bind (hs.edgesOf id) fun edges => hr.pure _

theorem run (hr : Composes r) (hs : source.Relates r source') (depth : UInt32) (fuel : Nat)
    (w : Walk) : r _ (w.run source depth fuel) (w.run source' depth fuel) := by
  induction fuel generalizing w with
  | zero => exact hr.pure w
  | succ fuel ih =>
    simp only [Walk.run]
    split
    · exact hr.pure w
    · exact hr.bind (hr.visit hs depth _ _ _) ih

/-- Analyses by related sources are related. -/
theorem analyze (hr : Composes r) (hs : source.Relates r source') (edgeCount : Nat)
    (path : String) (depth : UInt32) :
    r _ (Impact.analyze source edgeCount path depth)
      (Impact.analyze source' edgeCount path depth) :=
  hr.bind (hs.nodesAt path) fun _ => hr.bind (hr.run hs depth _ _) fun _ => hr.pure _

end Composes

end Ripple.Impact
