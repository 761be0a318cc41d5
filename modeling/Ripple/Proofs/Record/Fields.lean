import Ripple.Record.Fields
import Ripple.Proofs.Record.Codec
import Mathlib.Data.List.Nodup

/-!
# Records in any order

The members of an object are gone through as they come, but what a record is read as depends on
which members there are and not on their order: a field has the value that its codec reads from the
member of its name, or the one that stands for it where there is none (`Fields.Reads`,
`Fields.read_members`). Members that are no fields are passed over.

So what codecs give for the values of the fields (`Fields.Gives`) is read from any object with the
members that were written, of which those that are `null` can be left out, with others among them
(`Fields.reads_of_gives`), and from the array of the values (`Fields.fromItems_of_gives`). The
other way, what is read from the members that were written is what the codecs give
(`Fields.gives_of_reads`).
-/

namespace Ripple.Record

open Json (Draft depthLimit)

/-- What has been seen under distinct keys is what there is. -/
theorem lookup_eq_some_iff {β : Type} {members : List (String × β)} {key : String} {value : β}
    (h : (members.map Prod.fst).Nodup) :
    members.lookup key = some value ↔ (key, value) ∈ members := by
  induction members with
  | nil => simp
  | cons member members ih =>
    obtain ⟨k, v⟩ := member
    rw [List.map_cons, List.nodup_cons] at h
    rw [List.lookup_cons, List.mem_cons, Prod.mk.injEq]
    by_cases hkey : key = k
    · subst hkey
      have hrest : (key, value) ∉ members := fun hmem =>
        h.1 (List.mem_map.2 ⟨_, hmem, rfl⟩)
      simp [hrest, eq_comm]
    · have hne : (key == k) = false := beq_eq_false_iff_ne.2 hkey
      simp [hne, hkey, ih h.2]

theorem eq_of_mem_of_mem {β : Type} {members : List (String × β)} {key : String} {v w : β}
    (h : (members.map Prod.fst).Nodup) (hv : (key, v) ∈ members) (hw : (key, w) ∈ members) :
    v = w := by
  rw [← lookup_eq_some_iff h] at hv hw
  exact Option.some.inj (hv.symm.trans hw)

namespace Fields

variable {ρ : Type} {fields : Fields ρ} {members seen seen' : List (String × Draft)} {vs ws : ρ}

/-! ## What is read and what is given -/

/-- What is read from some members as the values of the fields. -/
def Reads (members : List (String × Draft)) : {ρ : Type} → Fields ρ → ρ → Prop
  | _, .done, _ => True
  | _, .field name codec omission rest, (value, values) =>
    ((∃ draft, (name, draft) ∈ members ∧ codec.read draft = .ok value) ∨
      (name ∉ members.map Prod.fst ∧ omission.inObject? = some value)) ∧ rest.Reads members values

/-- What the codecs of the fields give for values that they have written. -/
def Gives : {ρ : Type} → Fields ρ → ρ → ρ → Prop
  | _, .done, _, _ => True
  | _, .field _ codec _ rest, (v, vs), (w, ws) => codec.Gives v w ∧ rest.Gives vs ws

/-- Whether a field that is read from `null` has the same value where it is left out. -/
def OmitsNull : {ρ : Type} → Fields ρ → Prop
  | _, .done => True
  | _, .field _ codec omission rest =>
    (∀ {v}, codec.read .null = .ok v → omission.inObject? = some v) ∧ rest.OmitsNull

/-- Whether no field is read where it nests too deeply. -/
def Heeds : {ρ : Type} → Fields ρ → Prop
  | _, .done => True
  | _, .field _ codec _ rest => codec.Heeds ∧ rest.Heeds

/-- The members of a record as they are read from its text. -/
def shown (fields : Fields ρ) (vs : ρ) : List (String × Draft) :=
  (fields.members vs).map fun member => (member.1, member.2.shown)

theorem map_fst_members (fields : Fields ρ) (vs : ρ) :
    (fields.members vs).map Prod.fst = fields.names := by
  induction fields with
  | done => rfl
  | field name codec omission rest ih => rw [members, List.map_cons, ih, names]

/-! ## Going through members -/

theorem check?_eq_none {key : String} {draft : Draft} (h : key ∉ fields.names) :
    fields.check? key draft = none := by
  induction fields with
  | done => rfl
  | field name codec omission rest ih =>
    rw [names, List.mem_cons, not_or] at h
    rw [check?, if_neg (Ne.symm h.1), ih h.2]

theorem exists_check? {key : String} (draft : Draft) (h : key ∈ fields.names) :
    ∃ verdict, fields.check? key draft = some verdict := by
  induction fields with
  | done => exact absurd h List.not_mem_nil
  | field name codec omission rest ih =>
    rw [check?]
    split
    · exact ⟨_, rfl⟩
    · rename_i hne
      exact ih ((List.mem_cons.1 h).resolve_left fun he => hne he.symm)

/-- A member from which the value of its field is read passes. -/
theorem check?_of_reads {key : String} {draft : Draft}
    (hunique : ∀ other, (key, other) ∈ members → other = draft) (hmem : (key, draft) ∈ members)
    (hkey : key ∈ fields.names) (h : fields.Reads members vs) :
    fields.check? key draft = some (.ok ()) := by
  induction fields with
  | done => exact absurd hkey List.not_mem_nil
  | field name codec omission rest ih =>
    rw [check?]
    split
    case isTrue heq =>
      subst heq
      rcases h.1 with ⟨other, hother, hread⟩ | ⟨habsent, -⟩
      · rw [hunique other hother] at hread
        rw [hread]
        rfl
      · exact absurd (List.mem_map_of_mem hmem) habsent
    case isFalse hne =>
      exact ih ((List.mem_cons.1 hkey).resolve_left fun he => hne he.symm) h.2

theorem sift_cons_of_mem {key : String} {draft : Draft} {verdict : Except Fault Unit}
    (h : fields.check? key draft = some verdict) :
    fields.sift seen (Draft.named ((key, draft) :: members)) =
      if (seen.lookup key).isSome then .error (.duplicateField key)
      else verdict >>= fun _ => fields.sift ((key, draft) :: seen) (Draft.named members) := by
  rw [Draft.named, List.map_cons, sift, lift, Except.mapError, ok_bind]
  simp only [h]
  split <;> rfl

theorem sift_cons_of_not_mem {key : String} {draft : Draft} (h : key ∉ fields.names) :
    fields.sift seen (Draft.named ((key, draft) :: members)) =
      match draft.skipFault? with
      | some fault => .error (.ofJson fault)
      | none => fields.sift seen (Draft.named members) := by
  rw [Draft.named, List.map_cons, sift, lift, Except.mapError, ok_bind]
  simp only [check?_eq_none h]
  cases draft.skipFault? <;> rfl

/-- What is kept of members are those that are fields, the last one first. -/
theorem eq_of_sift (h : fields.sift seen (Draft.named members) = .ok seen') :
    seen' = (members.filter (·.1 ∈ fields.names)).reverse ++ seen := by
  induction members generalizing seen with
  | nil => exact (Except.ok.inj h).symm
  | cons member members ih =>
    obtain ⟨key, draft⟩ := member
    by_cases hkey : key ∈ fields.names
    · obtain ⟨verdict, hverdict⟩ := exists_check? draft hkey
      rw [sift_cons_of_mem hverdict] at h
      split at h
      · cases h
      · obtain ⟨-, -, h⟩ := bind_eq_ok.1 h
        rw [ih h, List.filter_cons_of_pos (by simpa using hkey), List.reverse_cons,
          List.append_assoc]
        rfl
    · rw [sift_cons_of_not_mem hkey] at h
      split at h
      · cases h
      · rw [ih h, List.filter_cons_of_neg (by simpa using hkey)]

/-- Members pass if each field is given once and can be read, and if the others can be passed
    over. -/
theorem sift_eq_ok (hnodup : ((members.filter (·.1 ∈ fields.names)).map Prod.fst).Nodup)
    (hseen : ∀ member ∈ members, member.1 ∈ fields.names → seen.lookup member.1 = none)
    (hfields : ∀ member ∈ members, member.1 ∈ fields.names →
      fields.check? member.1 member.2 = some (.ok ()))
    (hothers : ∀ member ∈ members, member.1 ∉ fields.names → member.2.skipFault? = none) :
    fields.sift seen (Draft.named members) =
      .ok ((members.filter (·.1 ∈ fields.names)).reverse ++ seen) := by
  induction members generalizing seen with
  | nil => rfl
  | cons member members ih =>
    obtain ⟨key, draft⟩ := member
    rw [List.forall_mem_cons] at hseen hfields hothers
    by_cases hkey : key ∈ fields.names
    · rw [List.filter_cons_of_pos (by simpa using hkey), List.map_cons, List.nodup_cons] at hnodup
      -- The field is not given again, so that none of the others has been seen.
      have hnext : ∀ member ∈ members, member.1 ∈ fields.names →
          ((key, draft) :: seen).lookup member.1 = none := by
        intro member hmem hmember
        have hne : (member.1 == key) = false := beq_eq_false_iff_ne.2 fun he =>
          hnodup.1 (List.mem_map.2 ⟨member, List.mem_filter.2 ⟨hmem, by simpa using hmember⟩, he⟩)
        rw [List.lookup_cons, hne]
        exact hseen.2 member hmem hmember
      have hnone : ¬(seen.lookup key).isSome := by simp [hseen.1 hkey]
      rw [sift_cons_of_mem (hfields.1 hkey), if_neg hnone, ok_bind,
        ih hnodup.2 hnext hfields.2 hothers.2, List.filter_cons_of_pos (by simpa using hkey),
        List.reverse_cons, List.append_assoc]
      rfl
    · rw [List.filter_cons_of_neg (by simpa using hkey)] at hnodup ⊢
      rw [sift_cons_of_not_mem hkey, hothers.1 hkey]
      exact ih hnodup hseen.2 hfields.2 hothers.2

/-- What is put in order is what is read from the members that were kept. -/
theorem collect_eq_ok
    (hseen : ∀ name ∈ fields.names, ∀ draft,
      seen.lookup name = some draft ↔ (name, draft) ∈ members) :
    fields.collect seen = .ok vs ↔ fields.Reads members vs := by
  induction fields with
  | done => exact iff_of_true rfl trivial
  | field name codec omission rest ih =>
    obtain ⟨v, vs⟩ := vs
    rw [names, List.forall_mem_cons] at hseen
    have hrest (value) : (do return (value, ← rest.collect seen) : Except Fault _) = .ok (v, vs) ↔
        value = v ∧ rest.Reads members vs := by
      rw [← ih hseen.2]
      constructor
      · intro h
        obtain ⟨values, hvalues, h⟩ := bind_eq_ok.1 h
        obtain ⟨rfl, rfl⟩ := Prod.mk.inj (Except.ok.inj h)
        exact ⟨rfl, hvalues⟩
      · rintro ⟨rfl, hvalues⟩
        exact bind_eq_ok.2 ⟨vs, hvalues, rfl⟩
    rw [collect, Reads]
    cases hlookup : seen.lookup name with
    | some draft =>
      have hmem := (hseen.1 draft).1 hlookup
      have hpresent : name ∈ members.map Prod.fst := List.mem_map_of_mem hmem
      -- The field is there, so what stands for it where it is left out does not matter.
      constructor
      · intro h
        obtain ⟨value, hread, h⟩ := bind_eq_ok.1 h
        obtain ⟨rfl, hvalues⟩ := (hrest value).1 h
        exact ⟨.inl ⟨draft, hmem, hread⟩, hvalues⟩
      · rintro ⟨⟨other, hother, hread⟩ | ⟨habsent, -⟩, hvalues⟩
        · have heq := ((hseen.1 other).2 hother).symm.trans hlookup
          rw [Option.some.inj heq] at hread
          exact bind_eq_ok.2 ⟨v, hread, (hrest v).2 ⟨rfl, hvalues⟩⟩
        · exact absurd hpresent habsent
    | none =>
      have habsent : name ∉ members.map Prod.fst := by
        intro h
        obtain ⟨⟨_, draft⟩, hmem, rfl⟩ := List.mem_map.1 h
        cases hlookup.symm.trans ((hseen.1 draft).2 hmem)
      have hnone : ¬∃ draft, (name, draft) ∈ members ∧ codec.read draft = .ok v :=
        fun ⟨_, hmem, _⟩ => habsent (List.mem_map_of_mem hmem)
      rw [or_iff_right hnone, and_iff_right habsent]
      cases homission : omission.inObject? with
      | none => exact iff_of_false nofun (fun h => nomatch h.1)
      | some value =>
        rw [Option.some.injEq]
        exact hrest value

/-- What a record is read as is what its fields are read as. -/
theorem read_members (hnodup : ((members.filter (·.1 ∈ fields.names)).map Prod.fst).Nodup)
    (hothers : ∀ member ∈ members, member.1 ∉ fields.names → member.2.skipFault? = none) :
    (do fields.collect (← fields.sift [] (Draft.named members))) = .ok vs ↔
      fields.Reads members vs := by
  -- What was kept under a field's name is the member of that name.
  have hkept : ∀ name ∈ fields.names, ∀ draft,
      (members.filter (·.1 ∈ fields.names)).reverse.lookup name = some draft ↔
        (name, draft) ∈ members := by
    intro name hname draft
    rw [lookup_eq_some_iff (by rwa [List.map_reverse, List.nodup_reverse]),
      List.mem_reverse, List.mem_filter]
    simp [hname]
  constructor
  · intro h
    obtain ⟨seen, hseen, h⟩ := bind_eq_ok.1 h
    rw [eq_of_sift hseen, List.append_nil] at h
    exact (collect_eq_ok hkept).1 h
  · intro h
    have hfields : ∀ member ∈ members, member.1 ∈ fields.names →
        fields.check? member.1 member.2 = some (.ok ()) := by
      rintro ⟨key, draft⟩ hmem hkey
      refine check?_of_reads (fun other hother => ?_) hmem hkey h
      exact Option.some.inj (((hkept key hkey other).2 hother).symm.trans
        ((hkept key hkey draft).2 hmem))
    rw [sift_eq_ok hnodup (by simp) hfields hothers, List.append_nil, ok_bind]
    exact (collect_eq_ok hkept).2 h

/-! ## Objects -/

/-- What is given for the fields is read from members among which theirs are, but for those that
    are `null`. -/
theorem reads_of_gives (hnull : fields.OmitsNull) (h : fields.Gives vs ws)
    (hmem : ∀ member ∈ fields.shown vs,
      member ∈ members ∨ (member.1 ∉ members.map Prod.fst ∧ member.2 = .null)) :
    fields.Reads members ws := by
  induction fields with
  | done => exact trivial
  | field name codec omission rest ih =>
    obtain ⟨v, vs⟩ := vs
    obtain ⟨w, ws⟩ := ws
    rw [shown, Fields.members, List.map_cons, List.forall_mem_cons] at hmem
    refine ⟨?_, ih hnull.2 h.2 hmem.2⟩
    rcases hmem.1 with hmem | ⟨habsent, hshown⟩
    · exact .inl ⟨_, hmem, h.1⟩
    · refine .inr ⟨habsent, hnull.1 ?_⟩
      rw [← show (codec.write v).shown = .null from hshown]
      exact h.1

/-- What is read from the members that were written is what is given for them. -/
theorem gives_of_reads (hnodup : (members.map Prod.fst).Nodup)
    (hall : ∀ member ∈ fields.shown vs, member ∈ members) (h : fields.Reads members ws) :
    fields.Gives vs ws := by
  induction fields with
  | done => exact trivial
  | field name codec omission rest ih =>
    obtain ⟨v, vs⟩ := vs
    obtain ⟨w, ws⟩ := ws
    rw [shown, Fields.members, List.map_cons, List.forall_mem_cons] at hall
    refine ⟨?_, ih hall.2 h.2⟩
    rcases h.1 with ⟨draft, hmem, hread⟩ | ⟨habsent, -⟩
    · rwa [eq_of_mem_of_mem hnodup hmem hall.1] at hread
    · exact absurd (List.mem_map_of_mem hall.1) habsent

/-- Members from which a record is read nest no deeper than the limit. -/
theorem depth_le_of_reads (hheeds : fields.Heeds) (hnodup : (members.map Prod.fst).Nodup)
    (hshows : ∀ member ∈ fields.members vs,
      ∃ draft, (member.1, draft) ∈ members ∧ draft.Shows 1 member.2)
    (h : fields.Reads members ws) :
    ∀ member ∈ fields.members vs, 1 + member.2.depth ≤ depthLimit := by
  induction fields with
  | done => exact fun _ hmem => absurd hmem List.not_mem_nil
  | field name codec omission rest ih =>
    obtain ⟨v, vs⟩ := vs
    obtain ⟨w, ws⟩ := ws
    rw [Fields.members, List.forall_mem_cons] at hshows ⊢
    refine ⟨?_, ih hheeds.2 hshows.2 h.2⟩
    obtain ⟨draft, hmem, hshows⟩ := hshows.1
    rcases h.1 with ⟨other, hother, hread⟩ | ⟨habsent, -⟩
    · rw [eq_of_mem_of_mem hnodup hother hmem] at hread
      exact hheeds.1 hshows hread
    · exact absurd (List.mem_map_of_mem hmem) habsent

/-! ## Arrays -/

/-- What is given for the fields is read from the array of their values. -/
theorem fromItems_of_gives (whole : String) (count : ℕ) (h : fields.Gives vs ws) :
    fields.fromItems whole none count ((fields.shown vs).map Prod.snd) = .ok (ws, []) := by
  induction fields generalizing count with
  | done => rfl
  | field name codec omission rest ih =>
    obtain ⟨v, vs⟩ := vs
    obtain ⟨w, ws⟩ := ws
    have hread : codec.read (codec.write v).shown = .ok w := h.1
    rw [shown, Fields.members, List.map_cons, List.map_cons, fromItems]
    simp only [hread, ok_bind, pure_bind]
    change (rest.fromItems whole none (count + 1) ((rest.shown vs).map Prod.snd) >>= _) = _
    rw [ih _ h.2]
    rfl

end Fields

end Ripple.Record
