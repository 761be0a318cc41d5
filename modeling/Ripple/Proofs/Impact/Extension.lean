import Ripple.Proofs.Impact.Deepen

/-!
# Graphs that have more

A graph extends another one if it has its nodes, with their files, and its edges
(`Graph.Extends`). Whatever is reached in a graph is reached in as many hops in one that extends
it, so an analysis there lists all files that it listed before (`Impact.files_subset_of_extends`).
-/

namespace Ripple

namespace Graph

/-- The second graph has all that the first one has. -/
structure Extends (g g' : Graph) : Prop where
  stored {id : String} : g.Stored id → g'.Stored id
  carries {id file : String} : g.Carries id file → g'.Carries id file
  adjacent {x y : String} : g.Adjacent x y → g'.Adjacent x y

namespace Extends

variable {g g' g'' : Graph}

theorem refl (g : Graph) : g.Extends g := ⟨id, id, id⟩

theorem trans (h : g.Extends g') (h' : g'.Extends g'') : g.Extends g'' :=
  ⟨h'.stored ∘ h.stored, h'.carries ∘ h.carries, h'.adjacent ∘ h.adjacent⟩

theorem of_subset (hnodes : g.nodes ⊆ g'.nodes) (hedges : g.edges ⊆ g'.edges) : g.Extends g' where
  stored := fun ⟨row, hrow, hid⟩ => ⟨row, hnodes hrow, hid⟩
  carries := fun ⟨row, hrow, hid, hfile⟩ => ⟨row, hnodes hrow, hid, hfile⟩
  adjacent := fun ⟨edge, hedge, hends⟩ => ⟨edge, hedges hedge, hends⟩

/-- A walk leads through a graph that has more. -/
theorem reaches {path id : String} {k : ℕ} (h : g.Extends g') (hr : g.Reaches path k id) :
    g'.Reaches path k id := by
  induction hr with
  | seed hc => exact .seed (h.carries hc)
  | step _ hstored hadj ih => exact .step ih (h.stored hstored) (h.adjacent hadj)

/-- Distances are the same in two graphs that extend each other. -/
theorem hops {path id : String} {k : ℕ} (h : g.Extends g') (h' : g'.Extends g)
    (hhops : g.Hops path id k) : g'.Hops path id k :=
  ⟨h.reaches hhops.1, fun _ hl => hhops.2 (h'.reaches hl)⟩

end Extends

end Graph

namespace Impact

variable {ε : Type} {source source' : Source (Except ε)} {g g' : Graph} {path : String}
  {depth : UInt32} {edgeCount edgeCount' : ℕ} {report report' : Report}

/-- An analysis of a graph that has more lists all files that were listed. -/
theorem files_subset_of_extends (hext : g.Extends g') (hs : source.Reads g)
    (hs' : source'.Reads g') (hedges : g.edges.length ≤ edgeCount)
    (hedges' : g'.edges.length ≤ edgeCount')
    (h : analyze source edgeCount path depth = .ok report)
    (h' : analyze source' edgeCount' path depth = .ok report') : report.files ⊆ report'.files := by
  intro file hfile
  obtain ⟨k, hk, id, hr, hc⟩ := (mem_files_iff hs hedges h).1 hfile
  exact (mem_files_iff hs' hedges' h').2 ⟨k, hk, id, hext.reaches hr, hext.carries hc⟩

/-- Analyses of two graphs that extend each other list the same files. -/
theorem perm_files_of_extends (hext : g.Extends g') (hext' : g'.Extends g) (hs : source.Reads g)
    (hs' : source'.Reads g') (hedges : g.edges.length ≤ edgeCount)
    (hedges' : g'.edges.length ≤ edgeCount')
    (h : analyze source edgeCount path depth = .ok report)
    (h' : analyze source' edgeCount' path depth = .ok report') :
    report.files.Perm report'.files :=
  (List.perm_ext_iff_of_nodup (nodup_files hs hedges h) (nodup_files hs' hedges' h')).2 fun _ =>
    ⟨fun hfile => files_subset_of_extends hext hs hs' hedges hedges' h h' hfile,
      fun hfile => files_subset_of_extends hext' hs' hs hedges' hedges h' h hfile⟩

end Impact

end Ripple
