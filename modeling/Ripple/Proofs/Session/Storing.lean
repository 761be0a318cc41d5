import Ripple.Proofs.Session.Upserts

/-!
# Calls that store

What a call that stores a node or an edge leaves in any tables, whether they are up to date or
not: the tables as they were, or with a row put into the table of nodes
(`Write.apply_putNode_cases`) or added to the table of edges (`Write.apply_putEdge_cases`). A
session that serves some tables serves what such a call leaves of them
(`Session.Serves.after_of_asked`).
-/

namespace Ripple

namespace Write

/-- A node is put into its table, or nothing is changed. -/
theorem apply_putNode_cases (t : Tables) (node : Node) (now : Instant) :
    apply t (.putNode node now) = t ∨
      ∃ nodes index, t.nodes = some nodes ∧ apply t (.putNode node now) =
        { t with nodes := some (nodes.put (.ofNode node now)), index := some index } := by
  cases hresult : (t.upsert node now).2 with
  | error e => exact .inl (Tables.upsertUnless_of_error hresult)
  | ok =>
    obtain ⟨⟨hnodes, hindex⟩, -⟩ := Tables.upsertUnless_eq_ok.1 hresult
    obtain ⟨nodes, hnodes⟩ := Option.isSome_iff_exists.1 hnodes
    obtain ⟨index, hindex⟩ := Option.isSome_iff_exists.1 hindex
    refine .inr ⟨nodes, Tables.reindex node index, hnodes, ?_⟩
    rw [apply, Tables.upsert_of_some hnodes hindex]

/-- An edge is added to its table, or nothing is changed. -/
theorem apply_putEdge_cases (t : Tables) (edge : NewEdge) :
    apply t (.putEdge edge) = t ∨
      ∃ edges, t.edges = some edges ∧
        apply t (.putEdge edge) = { t with edges := some (edges.add edge) } := by
  obtain ⟨nodes, edges, index, versions⟩ := t
  cases edges with
  | none => exact .inl rfl
  | some edges => exact .inr ⟨edges, rfl, rfl⟩

/-- A write makes no table and removes none, and it keeps all edges. -/
theorem isSome_apply (write : Write) (t : Tables) :
    (write.apply t).nodes.isSome = t.nodes.isSome ∧
      (write.apply t).edges.isSome = t.edges.isSome ∧
      t.edgeCount ≤ (write.apply t).edgeCount := by
  cases write with
  | putNode node now =>
    rcases apply_putNode_cases t node now with hsame | ⟨nodes, index, hnodes, hput⟩
    · rw [hsame]
      exact ⟨rfl, rfl, le_rfl⟩
    · rw [hput, hnodes]
      exact ⟨rfl, rfl, le_rfl⟩
  | putEdge edge =>
    rcases apply_putEdge_cases t edge with hsame | ⟨edges, hedges, hadd⟩
    · rw [hsame]
      exact ⟨rfl, rfl, le_rfl⟩
    · rw [hadd, hedges]
      refine ⟨rfl, rfl, ?_⟩
      simp [Tables.edgeCount, hedges, EdgeTable.add]

end Write

/-- The write that a call asks for, if it stores a node or an edge and does nothing else. -/
def Call.asked? : Call → Option Write
  | upsert _ node now => some (.putNode node now)
  | addEdge edge => some (.putEdge edge)
  | _ => none

namespace Session.Serves

variable {s : Session} {t : Tables}

/-- After a request the gate refuses nothing if it refused nothing before. -/
theorem allows_request {α : Type} (hs : s.Serves t) (method : Method)
    (f : Workspace → Workspace × Except GraphError α) :
    ∀ m, ((request method f).after s).gate.allowance m = none := by
  obtain ⟨hpass, hgate⟩ := hs.pass method
  rw [(request_of_pass hpass).2]
  exact hgate

/-- After a call that asks for a write, a session serves the tables as they were or as the write
    leaves them. -/
theorem after_of_asked {call : Call} {write : Write} (hs : s.Serves t) (hne : t ≠ .empty)
    (hcall : call.asked? = some write) :
    (call.after s).Serves t ∨ (call.after s).Serves (write.apply t) := by
  cases call with
  | upsert disturbed node now =>
    obtain rfl := Option.some.inj hcall
    rcases upsertNodeUnless_cases hs.tables hne with ⟨-, hafter⟩ | ⟨_, -, hafter⟩
    · exact .inr ⟨hafter, hs.allows_request _ _⟩
    · exact .inl ⟨hafter, hs.allows_request _ _⟩
  | addEdge edge =>
    obtain rfl := Option.some.inj hcall
    rcases addEdge_cases hs.tables hne with ⟨_, -, hafter⟩ | ⟨_, -, hafter⟩
    · exact .inr ⟨hafter, hs.allows_request _ _⟩
    · exact .inl ⟨hafter, hs.allows_request _ _⟩
  | _ => cases hcall

end Session.Serves

end Ripple
