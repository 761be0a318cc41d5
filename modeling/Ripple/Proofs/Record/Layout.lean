import Ripple.Proofs.Record.Fields

/-!
# Layouts of a record

A record is written as an object, but `Record.Layout` says how else it can be laid out: its members
can come in any order, those that are `null` can be left out and others can be added, or the
members' values alone form an array. From each layout is read what the codecs of the fields give
(`Record.read_layout`).

A codec ignores the layout if it decodes a value from all layouts of the value as soon as it does
from the text that it writes itself (`Codec.IgnoresLayout`). Codecs of records do, as long as none of
their fields is read where it nests too deeply (`Record.ignoresLayout_codec`): then the text that was
written shows what the codecs of the fields give (`Record.gives_of_decode`).
-/

namespace Ripple

open Json (Draft SoundMembers depthLimit)

/-! ## Layouts -/

/-- The values that lay out a record of some members. -/
inductive Record.Layout (members : List (String × Json)) : Json → Prop
  /-- An object of members that were kept, as only such were left out that are `null`, and of
      further members that can be read and have other names. -/
  | object {kept left further layout : List (String × Json)}
      (hmembers : members.Perm (kept ++ left)) (hleft : ∀ member ∈ left, member.2 = .null)
      (hfurther : ∀ member ∈ further, member.1 ∉ members.map Prod.fst ∧ member.2.Readable 126)
      (hlayout : layout.Perm (kept ++ further)) : Layout members (.obj layout)
  /-- The array of the members' values. -/
  | array : Layout members (.arr (members.map Prod.snd))

/-- Whether a value that is decoded from its text is decoded from all of its layouts. -/
def Codec.IgnoresLayout {α : Type} (codec : Codec α) : Prop :=
  ∀ (v : α) (members : List (String × Json)) (layout : Json), codec.write v = .obj members →
    (codec.write v).Sound → codec.decode (codec.encode v) = .ok v →
    Record.Layout members layout → codec.decode layout.text = .ok v

namespace Record

variable {members : List (String × Json)} {layout : Json}

/-- All members in any order, with further ones among them, are a layout. -/
theorem Layout.of_perm {further object : List (String × Json)}
    (hfurther : ∀ member ∈ further, member.1 ∉ members.map Prod.fst ∧ member.2.Readable 126)
    (h : object.Perm (members ++ further)) : Layout members (.obj object) := by
  have hmembers : members.Perm (members ++ []) := by rw [List.append_nil]
  exact .object hmembers (by simp) hfurther h

/-- A record is laid out as it was written. -/
theorem Layout.refl (members : List (String × Json)) : Layout members (.obj members) :=
  have h : members.Perm (members ++ []) := by rw [List.append_nil]
  .of_perm (by simp) h

/-- A layout can be read if the record can. -/
theorem Layout.readable (h : Layout members layout)
    (hreadable : (Json.obj members).Readable depthLimit) : layout.Readable depthLimit := by
  replace hreadable : ∀ member ∈ members, member.2.Readable 126 := Json.readable_obj.1 hreadable
  cases h with
  | object hmembers _ hfurther hlayout =>
    refine Json.readable_obj.2 fun member hmem => ?_
    rcases List.mem_append.1 (hlayout.subset hmem) with hkept | hmem
    · exact hreadable member (hmembers.symm.subset (List.mem_append_left _ hkept))
    · exact (hfurther member hmem).2
  | array => exact Json.readable_arr.2 (List.forall_mem_map.2 hreadable)

/-! ## Reading a layout -/

variable {ρ : Type} {fields : Fields ρ} {vs ws : ρ} {expected : String}

/-- Whichever way members are gone through, what is read from a layout is what the codecs give for
    what was written, as long as the fields' drafts are those that were written and the others can
    be passed over. -/
theorem Fields.read_object {object : List (String × Json)} (hnames : fields.names.Nodup)
    (hnull : fields.OmitsNull) (h : fields.Gives vs ws)
    (hlayout : Layout (fields.members vs) (.obj object)) (draft : Json → Draft)
    (hdraft : ∀ member ∈ fields.members vs, draft member.2 = member.2.shown)
    (hskip : ∀ member ∈ object, (draft member.2).skipFault? = none) :
    (fields.sift [] (Draft.named (object.map fun member => (member.1, draft member.2))) >>=
      fun seen => fields.collect seen) = .ok ws := by
  cases hlayout with
  | @object kept left further _ hmembers hleft hfurther hlayout =>
  rw [map_fst_members] at hfurther
  have hnodup : (kept.map Prod.fst ++ left.map Prod.fst).Nodup := by
    rwa [← List.map_append, ← (hmembers.map Prod.fst).nodup_iff, map_fst_members]
  rw [List.nodup_append] at hnodup
  have hname : ∀ member ∈ fields.members vs, member.1 ∈ fields.names := fun member hmem => by
    rw [← map_fst_members fields vs]
    exact List.mem_map_of_mem hmem
  -- The fields among the members are those that were kept.
  have hown : (object.filter (·.1 ∈ fields.names)).Perm kept := by
    have hkept : kept.filter (·.1 ∈ fields.names) = kept :=
      List.filter_eq_self.2 fun member hmem => decide_eq_true
        (hname member (hmembers.symm.subset (List.mem_append_left _ hmem)))
    have hothers : further.filter (·.1 ∈ fields.names) = [] :=
      List.filter_eq_nil_iff.2 fun member hmem => by simpa using (hfurther member hmem).1
    have hperm := hlayout.filter (·.1 ∈ fields.names)
    rwa [List.filter_append, hkept, hothers, List.append_nil] at hperm
  refine (read_members ?_ ?_).2 (reads_of_gives hnull h fun shown hmem => ?_)
  · rw [List.filter_map, List.map_map]
    exact ((hown.map Prod.fst).nodup_iff).2 hnodup.1
  · intro shown hmem _
    obtain ⟨member, hmember, rfl⟩ := List.mem_map.1 hmem
    exact hskip member hmember
  · obtain ⟨member, hmember, rfl⟩ := List.mem_map.1 hmem
    rcases List.mem_append.1 (hmembers.subset hmember) with hkept | hleft'
    · refine .inl (List.mem_map.2 ⟨member, ?_, by rw [hdraft member hmember]⟩)
      exact hlayout.symm.subset (List.mem_append_left _ hkept)
    · refine .inr ⟨fun habsent => ?_, congrArg Json.shown (hleft member hleft')⟩
      obtain ⟨_, hmem, heq⟩ := List.mem_map.1 habsent
      obtain ⟨other, hother, rfl⟩ := List.mem_map.1 hmem
      replace heq : other.1 = member.1 := heq
      rcases List.mem_append.1 (hlayout.subset hother) with hkept | hfurther'
      · exact hnodup.2.2 _ (List.mem_map_of_mem hkept) _ (List.mem_map_of_mem hleft') heq
      · exact (hfurther other hfurther').1 (heq ▸ hname member hmember)

/-- From a layout is read what the codecs of the fields give for what was written. -/
theorem read_layout (hnames : fields.names.Nodup) (hnull : fields.OmitsNull)
    (h : fields.Gives vs ws) (hlayout : Layout (fields.members vs) layout) :
    (codec expected fields).read layout.shown = .ok ws := by
  cases layout with
  | obj object =>
    rw [Json.shown_obj]
    exact Fields.read_object hnames hnull h hlayout Json.shown (fun _ _ => rfl)
      (fun member _ => Json.skipFault?_shown member.2)
  | arr items =>
    cases hlayout
    have hread := Fields.fromItems_of_gives (expected ++ " with " ++ elements fields.names.length)
      0 h
    rw [Fields.shown, List.map_map] at hread
    rw [Json.shown_arr, List.map_map]
    change (fields.fromItems _ none 0 ((fields.members vs).map _) >>= _) = _
    rw [show (Json.shown ∘ Prod.snd : String × Json → Draft) =
      Prod.snd ∘ fun member => (member.1, member.2.shown) from rfl, hread]
    rfl
  | _ => cases hlayout

/-- A record is read as what the codecs of its fields give. -/
theorem gives_codec (hnames : fields.names.Nodup) (hnull : fields.OmitsNull)
    (h : fields.Gives vs ws) : (codec expected fields).Gives vs ws :=
  read_layout hnames hnull h (.refl _)

/-! ## Reading what was written -/

/-- A record that can be decoded from its text nests no deeper than the limit, and what is decoded
    is what the codecs of its fields give. -/
theorem gives_of_decode (hnames : fields.names.Nodup) (hheeds : fields.Heeds)
    (hsound : SoundMembers (fields.members vs))
    (h : (codec expected fields).decode (Json.obj (fields.members vs)).text = .ok ws) :
    (Json.obj (fields.members vs)).Readable depthLimit ∧ fields.Gives vs ws := by
  obtain ⟨drafts, hdocument, hshows⟩ := Json.ofText_object hsound
  obtain ⟨members, rfl, hmembers⟩ := hshows.exists_named
  have hfst : members.map Prod.fst = fields.names :=
    (map_eq_of_forall₂ (fun _ _ h => h.1) hmembers).trans (Fields.map_fst_members fields vs)
  have hnodup : (members.map Prod.fst).Nodup := hfst ▸ hnames
  rw [Codec.decode, hdocument] at h
  obtain ⟨ws', hread, heq⟩ := bind_eq_ok.1 h
  obtain rfl : ws' = ws := Except.ok.inj heq
  have hreads : fields.Reads members ws' := by
    refine (Fields.read_members (hnodup.sublist (List.filter_sublist.map _)) ?_).1 hread
    exact fun member hmem hname => absurd (hfst ▸ List.mem_map_of_mem hmem) hname
  have hdrafts : ∀ member ∈ fields.members vs,
      ∃ draft, (member.1, draft) ∈ members ∧ draft.Shows 1 member.2 := fun member hmem => by
    obtain ⟨⟨_, draft⟩, hdraft, rfl, hshows⟩ := exists_of_forall₂ hmembers.flip hmem
    exact ⟨draft, hdraft, hshows⟩
  -- The drafts say how deeply the members nest only because the fields were read from them.
  have hdepth := Fields.depth_le_of_reads hheeds hnodup hdrafts hreads
  refine ⟨?_, Fields.gives_of_reads hnodup (fun shown hmem => ?_) hreads⟩
  · refine ⟨hsound, Nat.succ_le_succ (Json.depthOfMembers_le_iff.2 fun member hmem => ?_)⟩
    exact Nat.le_of_add_le_add_left (show 1 + member.2.depth ≤ 1 + 126 from hdepth member hmem)
  · obtain ⟨member, hmember, rfl⟩ := List.mem_map.1 hmem
    obtain ⟨draft, hdraft, hshows⟩ := hdrafts member hmember
    rwa [hshows.eq (hdepth member hmember)] at hdraft

/-- Codecs of records ignore the layout. -/
theorem ignoresLayout_codec {α : Type} {there : α → ρ} {back : ρ → α} (hnames : fields.names.Nodup)
    (hnull : fields.OmitsNull) (hheeds : fields.Heeds) :
    ((codec expected fields).map there back).IgnoresLayout := by
  intro v members layout hwrite hsound h hlayout
  obtain rfl : fields.members (there v) = members := Json.obj.inj hwrite
  rw [Codec.decode_map, map_eq_ok] at h
  obtain ⟨ws, h, hback⟩ := h
  obtain ⟨hreadable, hgives⟩ := gives_of_decode hnames hheeds hsound h
  rw [Codec.decode_map, Codec.decode_text (hlayout.readable hreadable),
    read_layout hnames hnull hgives hlayout, ← hback]
  rfl

end Record

end Ripple
