import Ripple.Record.Tagged
import Ripple.Proofs.Record.Layout

/-!
# Layouts of a tagged record

The tag of a tagged record can stand anywhere, so the other members are read in full and then gone
through again, as the drafts of their values (`Draft.replayed`). Values without items or members
come back as they were written, and so a record whose fields have only such values is read from each
of its layouts (`Record.readTagged_layout`): the tag is found once (`Record.splitTag_eq_ok`), and
what is left is a layout of the fields (`Record.Layout.of_cons`).
-/

namespace Ripple

open Json (Draft)

/-! ## Going through a value again -/

/-- A draft that is gone through again after it was read in full. -/
def Json.Draft.replayed (draft : Draft) : Draft :=
  match draft.value with
  | .ok value => value.draft
  | .error _ => draft

namespace Json

variable {value : Json} {items : List Json}

theorem exists_value_shown (value : Json) : ∃ v, value.shown.value = .ok v :=
  exists_value_draft value.reread

theorem value_shown (h : value.depth = 0) : value.shown.value = .ok value.reread := by
  cases value with
  | arr items => cases h
  | obj members => cases h
  | _ => rfl

/-- A value without items or members is shown again as it was. -/
theorem replayed_shown (h : value.depth = 0) : value.shown.replayed = value.shown := by
  rw [Draft.replayed, value_shown h]
  rfl

theorem skipFault?_replayed_shown (value : Json) : value.shown.replayed.skipFault? = none := by
  obtain ⟨v, hv⟩ := exists_value_shown value
  rw [Draft.replayed, hv]
  exact skipFault?_draft v

/-- Items that have no items or members of their own are shown again as they were. -/
theorem draftItems_shown (h : ∀ item ∈ items, item.depth = 0) :
    ∃ values, Draft.itemValues (items.map shown) = .ok values ∧
      draftItems values = items.map shown := by
  induction items with
  | nil => exact ⟨[], rfl, rfl⟩
  | cons item items ih =>
    rw [List.forall_mem_cons] at h
    obtain ⟨values, hvalues, hdrafts⟩ := ih h.2
    refine ⟨item.reread :: values, ?_, congrArg (item.shown :: ·) hdrafts⟩
    rw [List.map_cons, Draft.itemValues, value_shown h.1, ok_bind, hvalues]
    rfl

end Json

namespace Record

/-! ## The tag -/

variable {κ : Type} {tag name : String} {kinds : List (String × κ)} {kind : Option κ} {k : κ}
  {drafts : List (String × Draft)} {draft : Draft}

/-- Members that are gone through again. -/
def replayed (drafts : List (String × Draft)) : List (String × Draft) :=
  drafts.map fun member => (member.1, member.2.replayed)

theorem tagOf_str (h : kinds.lookup name = some k) : tagOf kinds (.str (.ok name)) = .ok k := by
  have hname : tagName (.str (.ok name)) = .ok name := rfl
  simp only [tagOf, hname, h, ok_bind]
  rfl

theorem splitTag_cons {key : String} (h : key ≠ tag) {v : Json} (hv : draft.value = .ok v) :
    splitTag tag kinds kind (Draft.named ((key, draft) :: drafts)) =
      (splitTag tag kinds kind (Draft.named drafts)).map fun split =>
        (split.1, (.ok key, draft.replayed) :: split.2) := by
  have hreplayed : draft.replayed = v.draft := by rw [Draft.replayed, hv]
  rw [Draft.named, List.map_cons, splitTag, hreplayed]
  change (if key = tag then _ else (lift draft.value >>= _)) = _
  rw [if_neg h, hv]
  change (splitTag tag kinds kind (Draft.named drafts) >>= _) = _
  cases splitTag tag kinds kind (Draft.named drafts) <;> rfl

theorem splitTag_of_not_mem (htag : tag ∉ drafts.map Prod.fst)
    (hvalue : ∀ member ∈ drafts, ∃ v, member.2.value = .ok v) :
    splitTag tag kinds kind (Draft.named drafts) = .ok (kind, Draft.named (replayed drafts)) := by
  induction drafts with
  | nil => rfl
  | cons member drafts ih =>
    obtain ⟨key, draft⟩ := member
    rw [List.map_cons, List.mem_cons, not_or] at htag
    rw [List.forall_mem_cons] at hvalue
    obtain ⟨v, hv⟩ := hvalue.1
    rw [splitTag_cons (Ne.symm htag.1) hv, ih htag.2 hvalue.2]
    rfl

/-- The tag is found wherever it stands, and the other members are gone through again. -/
theorem splitTag_eq_ok (htag : drafts.filter (·.1 = tag) = [(tag, draft)])
    (hkind : tagOf kinds draft = .ok k) (hvalue : ∀ member ∈ drafts, ∃ v, member.2.value = .ok v) :
    splitTag tag kinds none (Draft.named drafts) =
      .ok (some k, Draft.named (replayed (drafts.filter (·.1 ≠ tag)))) := by
  induction drafts with
  | nil => cases htag
  | cons member drafts ih =>
    obtain ⟨key, first⟩ := member
    rw [List.forall_mem_cons] at hvalue
    by_cases hkey : key = tag
    · subst hkey
      rw [List.filter_cons_of_pos (by simp)] at htag
      obtain ⟨hfirst, hrest⟩ := List.cons.inj htag
      obtain rfl : first = draft := congrArg Prod.snd hfirst
      have hnone : key ∉ drafts.map Prod.fst := fun hmem => by
        obtain ⟨member, hmem, heq⟩ := List.mem_map.1 hmem
        exact List.filter_eq_nil_iff.1 hrest member hmem (decide_eq_true heq)
      have hall : drafts.filter (·.1 ≠ key) = drafts := List.filter_eq_self.2 fun member hmem => by
        simpa using fun heq => hnone (List.mem_map.2 ⟨member, hmem, heq⟩)
      rw [List.filter_cons_of_neg (by simp), hall, Draft.named, List.map_cons, splitTag]
      change (if key = key then _ else _) = _
      rw [if_pos rfl]
      change (tagOf kinds first >>= _) = _
      rw [hkind]
      exact splitTag_of_not_mem hnone hvalue.2
    · rw [List.filter_cons_of_neg (by simpa using hkey)] at htag
      obtain ⟨v, hv⟩ := hvalue.1
      rw [splitTag_cons hkey hv, ih htag hvalue.2, List.filter_cons_of_pos (by simpa using hkey)]
      rfl

/-! ## Layouts -/

/-- A layout of a record whose first member cannot be left out has that member once, and what is
    left is a layout of the other members. -/
theorem Layout.of_cons {key : String} {value : Json} {members object : List (String × Json)}
    (hkey : key ∉ members.map Prod.fst) (hvalue : value ≠ .null)
    (h : Layout ((key, value) :: members) (.obj object)) :
    object.filter (·.1 = key) = [(key, value)] ∧
      Layout members (.obj (object.filter (·.1 ≠ key))) := by
  cases h with
  | @object kept left further _ hmembers hleft hfurther hlayout =>
  have hne : ∀ member ∈ members, member.1 ≠ key := fun member hmem heq =>
    hkey (List.mem_map.2 ⟨member, hmem, heq⟩)
  constructor
  · have hrest : members.filter (·.1 = key) = [] :=
      List.filter_eq_nil_iff.2 fun member hmem => by simpa using hne member hmem
    have hleft' : left.filter (·.1 = key) = [] := by
      refine List.filter_eq_nil_iff.2 fun member hmem => ?_
      rcases List.mem_cons.1 (hmembers.symm.subset (List.mem_append_right _ hmem)) with rfl | hmem'
      · exact absurd (hleft _ hmem) hvalue
      · simpa using hne member hmem'
    have hfurther' : further.filter (·.1 = key) = [] :=
      List.filter_eq_nil_iff.2 fun member hmem => by
        simpa using fun heq => (hfurther member hmem).1 (by simp [heq])
    have hkept := hmembers.filter (·.1 = key)
    rw [List.filter_cons_of_pos (by simp), hrest, List.filter_append, hleft'] at hkept
    have hobject := hlayout.filter (·.1 = key)
    rw [List.filter_append, hfurther'] at hobject
    exact List.perm_singleton.1 (hobject.trans hkept.symm)
  · have hrest : members.filter (·.1 ≠ key) = members :=
      List.filter_eq_self.2 fun member hmem => by simpa using hne member hmem
    have hmembers' := hmembers.filter (·.1 ≠ key)
    rw [List.filter_cons_of_neg (by simp), hrest, List.filter_append] at hmembers'
    have hlayout' := hlayout.filter (·.1 ≠ key)
    rw [List.filter_append] at hlayout'
    refine .object hmembers' (fun member hmem => hleft member (List.mem_of_mem_filter hmem))
      (fun member hmem => ?_) hlayout'
    obtain ⟨hname, hreadable⟩ := hfurther member (List.mem_of_mem_filter hmem)
    exact ⟨fun hmem => hname (List.mem_cons_of_mem _ hmem), hreadable⟩

variable {α ρ : Type} {kinds : List (String × Kind α)} (fields : Fields ρ) {make : ρ → α} {w : α}
  {vs ws : ρ} {expected expected' : String}

/-- From an object in any layout is read what the codecs of the fields give for what was written,
    if they write no values with items or members. -/
theorem readTagged_object {object : List (String × Json)}
    (hkind : kinds.lookup name = some (.ofFields expected' fields make))
    (hnames : (tag :: fields.names).Nodup) (hnull : fields.OmitsNull)
    (hflat : ∀ member ∈ fields.members vs, member.2.depth = 0) (h : fields.Gives vs ws)
    (hmake : make ws = w) (hlayout : Layout ((tag, .str name) :: fields.members vs) (.obj object)) :
    readTagged expected tag kinds (Json.obj object).shown = .ok w := by
  have htag : tagOf kinds (Json.str name).shown = .ok (.ofFields expected' fields make) :=
    tagOf_str hkind
  rw [List.nodup_cons, ← Fields.map_fst_members fields vs] at hnames
  obtain ⟨hfilter, hrest⟩ := hlayout.of_cons hnames.1 (by simp)
  have hsplit : splitTag tag kinds none (Draft.named (object.map fun member =>
      (member.1, member.2.shown))) = .ok (some (.ofFields expected' fields make), Draft.named
        ((object.filter (·.1 ≠ tag)).map fun member => (member.1, member.2.shown.replayed))) := by
    rw [splitTag_eq_ok (by rw [List.filter_map]; exact congrArg _ hfilter) htag, replayed,
      List.filter_map, List.map_map]
    · rfl
    · intro shown hmem
      obtain ⟨member, -, rfl⟩ := List.mem_map.1 hmem
      exact Json.exists_value_shown member.2
  -- The members that are gone through again are a layout of the fields.
  obtain ⟨seen, hseen, hcollect⟩ := bind_eq_ok.1 <|
    Fields.read_object (Fields.map_fst_members fields vs ▸ hnames.2) hnull h hrest
      (fun value => value.shown.replayed)
      (fun member hmem => Json.replayed_shown (hflat member hmem))
      (fun member _ => Json.skipFault?_replayed_shown member.2)
  rw [Json.shown_obj]
  change (splitTag tag kinds none _ >>= _) = _
  rw [hsplit, ok_bind]
  change (fields.sift [] _ >>= fun seen => fields.collect seen >>= _) = _
  rw [hseen, ok_bind, hcollect, ok_bind, hmake]
  rfl

/-- The same is read from the array of the tag and the values. -/
theorem readTagged_array (hkind : kinds.lookup name = some (.ofFields expected' fields make))
    (hflat : ∀ member ∈ fields.members vs, member.2.depth = 0) (h : fields.Gives vs ws)
    (hmake : make ws = w) : readTagged expected tag kinds
      (Json.arr (.str name :: (fields.members vs).map Prod.snd)).shown = .ok w := by
  have htag : tagOf kinds (Json.str name).shown = .ok (.ofFields expected' fields make) :=
    tagOf_str hkind
  -- Behind the tag, the items are read in full and gone through again like members.
  obtain ⟨values, hvalues, hdrafts⟩ := Json.draftItems_shown (List.forall_mem_map.2 hflat)
  have hshown : (fields.shown vs).map Prod.snd =
      ((fields.members vs).map Prod.snd).map Json.shown := by
    rw [Fields.shown, List.map_map, List.map_map]
    rfl
  have hread := Fields.fromItems_of_gives (expected' ++ " with " ++ elements fields.names.length)
    0 h
  rw [Json.shown_arr, List.map_cons]
  change (tagOf kinds (Json.str name).shown >>= _) = _
  rw [htag, ok_bind, hvalues]
  change (fields.fromItems _ none 0 (Json.draftItems values) >>= _) = _
  rw [hdrafts, ← hshown, hread, ← hmake]
  rfl

theorem readTagged_layout {layout : Json}
    (hkind : kinds.lookup name = some (.ofFields expected' fields make))
    (hnames : (tag :: fields.names).Nodup) (hnull : fields.OmitsNull)
    (hflat : ∀ member ∈ fields.members vs, member.2.depth = 0) (h : fields.Gives vs ws)
    (hmake : make ws = w) (hlayout : Layout ((tag, .str name) :: fields.members vs) layout) :
    readTagged expected tag kinds layout.shown = .ok w := by
  cases layout with
  | obj object => exact readTagged_object fields hkind hnames hnull hflat h hmake hlayout
  | arr items =>
    cases hlayout with
    | array => exact readTagged_array fields hkind hflat h hmake
  | null => nomatch hlayout
  | bool b => nomatch hlayout
  | num n => nomatch hlayout
  | str s => nomatch hlayout

end Record

end Ripple
