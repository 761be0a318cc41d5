import Mathlib.Data.List.Infix
import Mathlib.Data.List.Nodup
import Mathlib.Logic.Relation
import Ripple.Proofs.Store.Writes

/-!
# Migrations that are cut off

The statements of a migration are made final one by one, so a migration can be cut off after any
of them (`Tables.migrateFor`), and after eleven it is complete (`Tables.migrateFor_of_le`). What a
statement makes is there or not (`Tables.has`), and a statement succeeds if what it requires is
there (`SchemaStatement.requires`); a version requires all that it consists of.

Tables are *resumable* if they have what their objects require, and if their versions are the
first of those that a migration records (`Tables.Resumable`). The statements of a migration, in
their order, keep tables so (`Tables.Resumable.runAll`), and so do rows that are inserted. So from
any tables that attempts have left, a migration that is not cut off ends with all that there
should be, and with all rows (`migrate_of_upgradeStep`).
-/

namespace Ripple

namespace SchemaStatement

/-- The statements that make what a database of a version has. -/
def parts (version : ℤ) : List SchemaStatement :=
  (if 1 ≤ version then firstVersion else []) ++ (if 2 ≤ version then secondVersion else [])

/-- The version that a statement records. -/
def version? : SchemaStatement → Option ℤ
  | record version => some version
  | _ => none

/-- The statements that make what has to be there before a statement is run: the table of an
    index, and all that a version consists of. -/
def requires : SchemaStatement → List SchemaStatement
  | createVersions | createNodes | createEdges | createIndex => []
  | indexNodesByFile | indexNodesByKind => [createNodes]
  | indexEdgesBySource | indexEdgesByTarget => [createEdges]
  | record version => createVersions :: parts version

/-- Each of some statements requires only what those before it make, or what is there. -/
def InOrder (held : List SchemaStatement) : List SchemaStatement → Prop
  | [] => True
  | s :: rest => s.requires ⊆ held ∧ InOrder (s :: held) rest

instance InOrder.decidable (held : List SchemaStatement) :
    (ss : List SchemaStatement) → Decidable (InOrder held ss)
  | [] => inferInstanceAs (Decidable True)
  | s :: rest => @instDecidableAnd _ _ (inferInstanceAs (Decidable (∀ r ∈ s.requires, r ∈ held)))
      (decidable (s :: held) rest)

variable {held ss : List SchemaStatement}

theorem InOrder.take (h : InOrder held ss) (n : ℕ) : InOrder held (ss.take n) := by
  induction ss generalizing held n with
  | nil => simpa using h
  | cons s rest ih =>
    cases n with
    | zero => exact trivial
    | succ n => exact ⟨h.1, ih h.2 n⟩

/-- What a database of a version lacks is in order after what it has. -/
theorem inOrder_pending (version : ℤ) :
    InOrder (createVersions :: parts version) (pending version) := by
  by_cases h₂ : 2 ≤ version
  · have hpending : pending version = [] := by
      rw [pending, if_neg (by omega), if_neg (by omega)]
      rfl
    rw [hpending]
    exact trivial
  · by_cases h₁ : 1 ≤ version
    · have hpending : pending version = [createIndex, record 2] := by
        rw [pending, if_neg (by omega), if_pos (by omega)]
        rfl
      have hparts : parts version = firstVersion := by
        rw [parts, if_pos h₁, if_neg h₂, List.append_nil]
      rw [hpending, hparts]
      exact ⟨List.nil_subset _, by decide, trivial⟩
    · have hpending : pending version = pending 0 := by
        rw [pending, if_pos (by omega), if_pos (by omega)]
        rfl
      rw [hpending, parts, if_neg h₁, if_neg h₂]
      decide

end SchemaStatement

open SchemaStatement

/-! ## Objects and rows -/

/-- The rows of some tables. -/
structure Rows where
  /-- The nodes. -/
  nodes : List NodeRow
  /-- The edges. -/
  edges : List EdgeRow
  /-- The greatest identifier that was given to an edge. -/
  lastId : ℕ
  /-- The text index. -/
  index : List IndexRow

/-- The rows of the second tables are those of the first and perhaps others. -/
structure Rows.KeptIn (rows rows' : Rows) : Prop where
  nodes : rows.nodes.Sublist rows'.nodes
  edges : rows.edges.Sublist rows'.edges
  lastId : rows.lastId ≤ rows'.lastId
  index : rows.index.Sublist rows'.index

namespace Rows.KeptIn

variable {a b c : Rows}

theorem refl (a : Rows) : a.KeptIn a := ⟨.refl _, .refl _, le_rfl, .refl _⟩

theorem trans (h : a.KeptIn b) (h' : b.KeptIn c) : a.KeptIn c :=
  ⟨h.nodes.trans h'.nodes, h.edges.trans h'.edges, h.lastId.trans h'.lastId,
    h.index.trans h'.index⟩

end Rows.KeptIn

namespace Tables

/-- The rows of some tables. A table that is missing has none. -/
def rows (t : Tables) : Rows where
  nodes := (t.nodes.map NodeTable.rows).getD []
  edges := (t.edges.map EdgeTable.rows).getD []
  lastId := (t.edges.map EdgeTable.lastId).getD 0
  index := t.index.getD []

/-- Whether what a statement makes is there. -/
def has (t : Tables) : SchemaStatement → Bool
  | createVersions => t.versions.isSome
  | createNodes => t.nodes.isSome
  | indexNodesByFile => t.nodes.any (·.byFile)
  | indexNodesByKind => t.nodes.any (·.byKind)
  | createEdges => t.edges.isSome
  | indexEdgesBySource => t.edges.any (·.bySource)
  | indexEdgesByTarget => t.edges.any (·.byTarget)
  | createIndex => t.index.isSome
  | record version => version ∈ t.versions.getD []

/-- The second tables have what some statements make in addition, and the same rows. -/
structure Gains (t : Tables) (ss : List SchemaStatement) (t' : Tables) : Prop where
  has (s : SchemaStatement) : t'.has s ↔ t.has s ∨ s ∈ ss
  versions : t'.versions.getD [] = t.versions.getD [] ++ ss.filterMap version?
  rows : t'.rows = t.rows

variable {t t' t'' : Tables} {ss ss' held : List SchemaStatement}

theorem Gains.nil (t : Tables) : t.Gains [] t := ⟨by simp, by simp, rfl⟩

theorem Gains.append (h : t.Gains ss t') (h' : t'.Gains ss' t'') : t.Gains (ss ++ ss') t'' where
  has s := by rw [h'.has, h.has, List.mem_append, or_assoc]
  versions := by rw [h'.versions, h.versions, List.filterMap_append, List.append_assoc]
  rows := h'.rows.trans h.rows

/-- A statement succeeds if what it requires is there and if it records nothing twice. -/
theorem exists_apply (s : SchemaStatement) (hrequires : ∀ r ∈ s.requires, t.has r)
    (hnew : ∀ version ∈ s.version?, version ∉ t.versions.getD []) :
    ∃ t', s.apply t = .ok t' ∧ t.Gains [s] t' := by
  obtain ⟨nodes, edges, index, versions⟩ := t
  cases s with
  | createVersions =>
    refine ⟨_, rfl, fun s => ?_, by simp [version?], rfl⟩
    cases s <;> simp [has]
  | createNodes =>
    refine ⟨_, rfl, fun s => ?_, by simp [version?], ?_⟩
    · cases nodes <;> cases s <;> simp [has, NodeTable.empty]
    · cases nodes <;> rfl
  | createEdges =>
    refine ⟨_, rfl, fun s => ?_, by simp [version?], ?_⟩
    · cases edges <;> cases s <;> simp [has]
    · cases edges <;> rfl
  | createIndex =>
    refine ⟨_, rfl, fun s => ?_, by simp [version?], ?_⟩
    · cases s <;> simp [has]
    · cases index <;> rfl
  | indexNodesByFile | indexNodesByKind =>
    obtain ⟨table, rfl⟩ := Option.isSome_iff_exists.1 (hrequires .createNodes (by simp [requires]))
    refine ⟨_, rfl, fun s => ?_, by simp [version?], rfl⟩
    cases s <;> simp [has]
  | indexEdgesBySource | indexEdgesByTarget =>
    obtain ⟨table, rfl⟩ := Option.isSome_iff_exists.1 (hrequires .createEdges (by simp [requires]))
    refine ⟨_, rfl, fun s => ?_, by simp [version?], rfl⟩
    cases s <;> simp [has]
  | record version =>
    obtain ⟨versions, rfl⟩ :=
      Option.isSome_iff_exists.1 (hrequires .createVersions (by simp [requires]))
    have hnew : version ∉ versions := hnew version rfl
    refine ⟨_, if_neg hnew, fun s => ?_, by simp [version?], rfl⟩
    cases s <;> simp [has]

/-! ## Runs of statements -/

/-- Tables that have what their objects require, and the first of the versions that a migration
    records. -/
structure Resumable (t : Tables) : Prop where
  requires (s : SchemaStatement) : t.has s → ∀ r ∈ s.requires, t.has r
  versions : t.versions.getD [] <+: [1, 2]

theorem Resumable.empty : Tables.empty.Resumable where
  requires s hs := by cases s <;> simp [has, Tables.empty] at hs
  versions := List.nil_prefix

namespace Resumable

/-- A statement whose requirements are met keeps tables resumable. -/
theorem gains {s : SchemaStatement} (h : t.Resumable) (hrequires : ∀ r ∈ s.requires, t.has r)
    (hgains : t.Gains [s] t')
    (hversions : t.versions.getD [] ++ [s].filterMap version? <+: [1, 2]) : t'.Resumable where
  requires s' hs' r hr := by
    rw [hgains.has, List.mem_singleton] at hs' ⊢
    rcases hs' with hs' | rfl
    · exact .inl (h.requires s' hs' r hr)
    · exact .inl (hrequires r hr)
  versions := by rwa [hgains.versions]

/-- Statements that are in order after what is there all succeed, and keep tables resumable. -/
theorem runAll (h : t.Resumable) (hheld : ∀ s ∈ held, t.has s) (horder : InOrder held ss)
    (hversions : t.versions.getD [] ++ ss.filterMap version? <+: [1, 2]) :
    ∃ t', t.runAll ss = (t', .ok ()) ∧ t.Gains ss t' ∧ t'.Resumable := by
  induction ss generalizing held t with
  | nil => exact ⟨t, rfl, .nil t, h⟩
  | cons s rest ih =>
    have hrequires : ∀ r ∈ s.requires, t.has r := fun r hr => hheld r (horder.1 hr)
    rw [← List.singleton_append, List.filterMap_append, ← List.append_assoc] at hversions
    have hfirst : t.versions.getD [] ++ [s].filterMap version? <+: [1, 2] :=
      (List.prefix_append _ _).trans hversions
    -- A version that is to be recorded comes after others, so it is a new one.
    have hnew : ∀ version ∈ s.version?, version ∉ t.versions.getD [] := by
      intro version hversion hmem
      have hnodup := hfirst.sublist.nodup (by decide)
      refine List.disjoint_of_nodup_append hnodup hmem ?_
      exact List.mem_filterMap.2 ⟨s, List.mem_singleton_self s, hversion⟩
    obtain ⟨t₁, happly, hgains⟩ := exists_apply s hrequires hnew
    obtain ⟨t', hrun, hgains', hresumable⟩ := ih (h.gains hrequires hgains hfirst)
      (fun r hr => (hgains.has r).2 <| (List.mem_cons.1 hr).elim (fun he => .inr (by simp [he]))
        fun hr => .inl (hheld r hr)) horder.2 (by rwa [hgains.versions])
    refine ⟨t', ?_, hgains.append hgains', hresumable⟩
    rw [Tables.runAll, happly]
    exact hrun

end Resumable

/-! ## Attempts -/

/-- The tables after the first statements of a migration. The first of all makes the table of
    versions, and the second one reads the version. -/
def migrateFor (steps : ℕ) (t : Tables) : Tables :=
  match steps with
  | 0 => t
  | steps + 1 =>
    let t := t.withVersions
    match t.version with
    | .error _ => t
    | .ok version => (t.runAll ((pending version).take (steps - 1))).1

/-- An attempt that is not cut off makes eleven statements at most. -/
theorem migrateFor_of_le {steps : ℕ} (h : 11 ≤ steps) (t : Tables) :
    t.migrateFor steps = t.migrate.1 := by
  obtain ⟨steps, rfl⟩ := Nat.exists_eq_add_of_le' (Nat.one_le_of_lt h)
  have hlength (version : ℤ) : (pending version).length ≤ steps - 1 := by
    have hpending : (pending version).length ≤ 9 := by
      rw [pending]
      split <;> split <;> decide
    omega
  simp only [migrateFor, migrate]
  cases t.withVersions.version with
  | error fault => rfl
  | ok version =>
    have htake : (pending version).take (steps - 1) = pending version :=
      List.take_of_length_le (hlength version)
    simp only [htake]

namespace Resumable

/-- The version of resumable tables says what they have and what they lack. -/
theorem exists_version (h : t.Resumable) :
    ∃ version, t.version = .ok version ∧ (∀ s ∈ parts version, t.has s) ∧
      t.versions.getD [] ++ (pending version).filterMap version? = [1, 2] := by
  have hparts (version : ℤ) (hmem : version ∈ t.versions.getD []) :
      ∀ s ∈ parts version, t.has s := fun s hs =>
    h.requires (.record version) (decide_eq_true hmem) s (List.mem_cons_of_mem _ hs)
  have hinits : t.versions.getD [] ∈ [1, 2].inits := (List.mem_inits _ _).2 h.versions
  rw [Tables.version]
  rcases (by simpa using hinits : t.versions.getD [] = [] ∨ t.versions.getD [] = [1] ∨
    t.versions.getD [] = [1, 2]) with hv | hv | hv <;> rw [hv] at hparts ⊢
  · exact ⟨0, rfl, fun _ hs => absurd hs List.not_mem_nil, rfl⟩
  · exact ⟨1, rfl, hparts 1 (by simp), rfl⟩
  · exact ⟨2, rfl, hparts 2 (by simp), rfl⟩

theorem withVersions (h : t.Resumable) :
    t.Gains [createVersions] t.withVersions ∧ t.withVersions.Resumable := by
  have hversions : t.versions.getD [] ++ [createVersions].filterMap version? <+: [1, 2] := by
    rw [List.filterMap_cons_none rfl, List.filterMap_nil, List.append_nil]
    exact h.versions
  have horder : InOrder [] [createVersions] := by decide
  obtain ⟨t', hrun, hgains, hresumable⟩ :=
    h.runAll (fun _ hs => absurd hs List.not_mem_nil) horder hversions
  obtain rfl : t.withVersions = t' := congrArg Prod.fst hrun
  exact ⟨hgains, hresumable⟩

/-- The statements that resumable tables lack succeed, all of them or the first ones. -/
theorem runAll_pending (h : t.Resumable) (steps : ℕ) :
    ∃ version t', t.withVersions.version = .ok version ∧
      (∀ s ∈ parts version, t.withVersions.has s) ∧
      t.withVersions.runAll ((pending version).take steps) = (t', .ok ()) ∧
      t.Gains (createVersions :: (pending version).take steps) t' ∧ t'.Resumable ∧
      (t.versions.getD [] ++ (pending version).filterMap version? = [1, 2]) := by
  obtain ⟨hgains, hresumable⟩ := h.withVersions
  obtain ⟨version, hversion, hparts, hversions⟩ := hresumable.exists_version
  have hheld : ∀ s ∈ createVersions :: parts version, t.withVersions.has s :=
    List.forall_mem_cons.2 ⟨rfl, hparts⟩
  have hprefix : t.withVersions.versions.getD [] ++
      ((pending version).take steps).filterMap version? <+: [1, 2] := by
    rw [← hversions, List.prefix_append_right_inj]
    exact (List.take_prefix _ _).filterMap _
  obtain ⟨t', hrun, hgains', hresumable'⟩ :=
    hresumable.runAll hheld ((inOrder_pending version).take steps) hprefix
  exact ⟨version, t', hversion, hparts, hrun, hgains.append hgains', hresumable', hversions⟩

theorem migrateFor (h : t.Resumable) (steps : ℕ) :
    ∃ ss, t.Gains ss (t.migrateFor steps) ∧ (t.migrateFor steps).Resumable := by
  cases steps with
  | zero => exact ⟨[], .nil t, h⟩
  | succ steps =>
    obtain ⟨version, t', hversion, -, hrun, hgains, hresumable, -⟩ := h.runAll_pending (steps - 1)
    have hafter : t.migrateFor (steps + 1) = t' := by
      rw [Tables.migrateFor, hversion]
      exact congrArg Prod.fst hrun
    rw [hafter]
    exact ⟨_, hgains, hresumable⟩

/-- Resumable tables that record both versions have what a migration makes of none. -/
theorem has_eq (h : t.Resumable) (hversions : t.versions = some [1, 2]) (s : SchemaStatement) :
    t.has s = fresh.has s := by
  have hall : ∀ r ∈ (record 2).requires, t.has r :=
    h.requires (.record 2) (by simp [has, hversions])
  have hfresh : ∀ r ∈ (record 2).requires, fresh.has r := by decide
  cases s with
  | record version => simp [has, hversions, fresh, current]
  | _ => exact (hall _ (by decide)).trans (hfresh _ (by decide)).symm

/-- A migration of resumable tables succeeds and makes all that there should be. -/
theorem migrate (h : t.Resumable) :
    ∃ t', t.migrate = (t', .ok ()) ∧ t'.Resumable ∧ t'.versions = some [1, 2] ∧
      t'.rows = t.rows := by
  obtain ⟨version, t', hversion, -, hrun, hgains, hresumable, hversions⟩ :=
    h.runAll_pending (pending 0).length
  have hlength : (pending version).length ≤ (pending 0).length := by
    rw [pending]
    split <;> split <;> decide
  rw [List.take_of_length_le hlength] at hrun hgains
  refine ⟨t', ?_, hresumable, ?_, hgains.rows⟩
  · rw [Tables.migrate, hversion]
    exact hrun
  · have hsome : t'.versions.isSome := (hgains.has createVersions).2 (.inr List.mem_cons_self)
    obtain ⟨versions, hv⟩ := Option.isSome_iff_exists.1 hsome
    have hgiven := hgains.versions
    rw [List.filterMap_cons_none rfl, hversions, hv] at hgiven
    rw [hv]
    exact congrArg some hgiven

end Resumable

/-! ## Tables that are up to date -/

section

variable (h : t.versions = some [1, 2])
include h

theorem withVersions_of_versions : t.withVersions = t := by
  obtain ⟨_, _, _, _⟩ := t
  obtain rfl : _ = some [1, 2] := h
  rfl

theorem version_of_versions : t.version = .ok 2 := by
  rw [version, h]
  rfl

/-- Where both versions are recorded there is nothing to do. -/
theorem migrate_of_versions : t.migrate = (t, .ok ()) := by
  rw [migrate, withVersions_of_versions h, version_of_versions h]
  rfl

theorem migrateFor_of_versions (steps : ℕ) : t.migrateFor steps = t := by
  cases steps with
  | zero => rfl
  | succ steps =>
    rw [migrateFor, withVersions_of_versions h, version_of_versions h]
    exact congrArg Prod.fst (congrArg t.runAll List.take_nil)

theorem schemaStatus_of_versions : t.schemaStatus = (t, .ok ⟨2, 2, false⟩) := by
  rw [schemaStatus, withVersions_of_versions h, version_of_versions h]
  rfl

end

/-! ## Upgrades -/

/-- The second tables have the same objects, and other rows beside those of the first. -/
structure Adds (t t' : Tables) : Prop where
  has (s : SchemaStatement) : t'.has s = t.has s
  versions : t'.versions = t.versions
  rows : t.rows.KeptIn t'.rows

/-- What can happen to tables that are being brought up to date. -/
inductive UpgradeStep : Tables → Tables → Prop
  /-- An attempt is cut off after some statements. -/
  | attempt (t : Tables) (steps : ℕ) : UpgradeStep t (t.migrateFor steps)
  /-- Rows are inserted. -/
  | insert {t t' : Tables} (h : t.Adds t') : UpgradeStep t t'

namespace UpgradeStep

/-- A step keeps tables resumable, and all rows. -/
theorem keeps (hstep : UpgradeStep t t') (h : t.Resumable) :
    t'.Resumable ∧ t.rows.KeptIn t'.rows ∧ t.versions.getD [] <+: t'.versions.getD [] := by
  cases hstep with
  | attempt steps =>
    obtain ⟨ss, hgains, hresumable⟩ := h.migrateFor steps
    rw [hgains.rows, hgains.versions]
    exact ⟨hresumable, .refl _, List.prefix_append _ _⟩
  | insert hadds =>
    refine ⟨⟨fun s hs r hr => ?_, ?_⟩, hadds.rows, ?_⟩
    · rw [hadds.has] at hs ⊢
      exact h.requires s hs r hr
    · rw [hadds.versions]
      exact h.versions
    · rw [hadds.versions]

/-- Steps keep tables resumable, and all rows. -/
theorem keeps_of_reflTransGen (hsteps : Relation.ReflTransGen UpgradeStep t t')
    (h : t.Resumable) :
    t'.Resumable ∧ t.rows.KeptIn t'.rows ∧ t.versions.getD [] <+: t'.versions.getD [] := by
  induction hsteps with
  | refl => exact ⟨h, .refl _, List.prefix_rfl⟩
  | tail _ hstep ih =>
    obtain ⟨hresumable, hrows, hversions⟩ := ih
    obtain ⟨hresumable', hrows', hversions'⟩ := hstep.keeps hresumable
    exact ⟨hresumable', hrows.trans hrows', hversions.trans hversions'⟩

end UpgradeStep

end Tables

open Tables in
/-- Attempts to bring no tables up to date are cut off anywhere, and rows are inserted between
    them. At any point on the way the version that is reported has all of its parts. At the end an
    attempt that is not cut off succeeds and makes what it makes of no tables, with the same
    versions and with all rows that were there at the end or at any point before. After that
    neither an attempt nor a look at the version changes anything. -/
theorem migrate_of_upgradeStep {before t : Tables}
    (hbefore : Relation.ReflTransGen UpgradeStep .empty before)
    (hafter : Relation.ReflTransGen UpgradeStep before t) :
    (∃ status, before.schemaStatus.2 = .ok status ∧ ∀ s ∈ parts status.current, before.has s) ∧
    ∃ t', t.migrate = (t', .ok ()) ∧ (∀ s, t'.has s = fresh.has s) ∧ t'.versions = some [1, 2] ∧
      t'.rows = t.rows ∧ before.rows.KeptIn t'.rows ∧
      before.versions.getD [] <+: [1, 2] ∧
      t'.migrate = (t', .ok ()) ∧ (∀ steps, t'.migrateFor steps = t') ∧
      t'.schemaStatus = (t', .ok ⟨2, 2, false⟩) := by
  obtain ⟨hresumable, -, -⟩ := UpgradeStep.keeps_of_reflTransGen hbefore .empty
  obtain ⟨hresumable', hrows, -⟩ := UpgradeStep.keeps_of_reflTransGen hafter hresumable
  constructor
  · obtain ⟨version, hversion, hparts, -⟩ := hresumable.exists_version
    have hlook : before.withVersions.version = .ok version := hversion
    exact ⟨_, by rw [schemaStatus, hlook]; rfl, hparts⟩
  · obtain ⟨t', hmigrate, hmigrated, hversions, hkept⟩ := hresumable'.migrate
    refine ⟨t', hmigrate, hmigrated.has_eq hversions, hversions, hkept, ?_, hresumable.versions,
      migrate_of_versions hversions, migrateFor_of_versions hversions,
      schemaStatus_of_versions hversions⟩
    rwa [hkept]

/-- The table of nodes has been made and has one of its indexes, and then a row has been
    inserted. -/
def Tables.halfway : Tables where
  nodes := some ⟨[.ofNode (.file "a.rs" "" .epoch) .epoch], true, false, List.nodup_singleton _⟩
  edges := none
  index := none
  versions := some []

/-- The second attempt makes all parts of the first version and does not record it, and the third
    one does not record the second version. -/
theorem migrate_of_upgradeStep_halfway :
    let t := (Tables.halfway.migrateFor 8).migrateFor 10
    Relation.ReflTransGen Tables.UpgradeStep .empty .halfway ∧
      Relation.ReflTransGen Tables.UpgradeStep .halfway t ∧
      t.versions = some [1] ∧ t.index = some [] ∧
      ∃ t', t.migrate = (t', .ok ()) ∧ (∀ s, t'.has s = Tables.fresh.has s) ∧
        Tables.halfway.rows.KeptIn t'.rows := by
  intro t
  have hinsert : (Tables.empty.migrateFor 4).Adds .halfway :=
    ⟨fun s => by cases s <;> rfl, rfl, List.nil_sublist _, .refl _, le_rfl, .refl _⟩
  have hbefore : Relation.ReflTransGen Tables.UpgradeStep .empty .halfway :=
    .tail (.single (.attempt _ 4)) (.insert hinsert)
  have hafter : Relation.ReflTransGen Tables.UpgradeStep .halfway t :=
    .tail (.single (.attempt _ 8)) (.attempt _ 10)
  obtain ⟨-, t', hmigrate, hhas, -, -, hrows, -⟩ := migrate_of_upgradeStep hbefore hafter
  exact ⟨hbefore, hafter, rfl, rfl, t', hmigrate, hhas, hrows⟩

end Ripple
