import Ripple.Proofs.Json.RoundTrip

/-!
# Items and members

What holds of a value holds of its items and members, one by one: whether all numbers are of 64
bits, how deeply it nests (both in `Json.Readable`), and what its draft is. The draft of the text of
a value that is not too deep is `Json.shown` (`Json.ofText_shown`); whoever passes over it meets no
fault.
-/

namespace Ripple.Json

variable {items : List Json} {members : List (String × Json)} {value : Json} {n : ℕ}

theorem soundItems_iff : SoundItems items ↔ ∀ item ∈ items, item.Sound := by
  induction items with
  | nil => exact iff_of_true trivial (by simp)
  | cons item items ih => rw [List.forall_mem_cons, ← ih, SoundItems]

theorem soundMembers_iff : SoundMembers members ↔ ∀ member ∈ members, member.2.Sound := by
  induction members with
  | nil => exact iff_of_true trivial (by simp)
  | cons member members ih => rw [List.forall_mem_cons, ← ih, SoundMembers, SoundMember]

theorem depthOfItems_le_iff : depthOfItems items ≤ n ↔ ∀ item ∈ items, item.depth ≤ n := by
  induction items with
  | nil => exact iff_of_true (Nat.zero_le n) (by simp)
  | cons item items ih => rw [List.forall_mem_cons, ← ih, depthOfItems, max_le_iff]

theorem depthOfMembers_le_iff :
    depthOfMembers members ≤ n ↔ ∀ member ∈ members, member.2.depth ≤ n := by
  induction members with
  | nil => exact iff_of_true (Nat.zero_le n) (by simp)
  | cons member members ih =>
    rw [List.forall_mem_cons, ← ih, depthOfMembers, max_le_iff, depthOfMember]

/-- Whether a value can be read where no more than some number of arrays and objects may nest. -/
def Readable (n : ℕ) (value : Json) : Prop := value.Sound ∧ value.depth ≤ n

@[simp] theorem readable_null : null.Readable n := ⟨trivial, Nat.zero_le n⟩

@[simp] theorem readable_str (s : String) : (str s).Readable n := ⟨trivial, Nat.zero_le n⟩

@[simp] theorem readable_int {k : ℤ} :
    (int k).Readable n ↔ -9223372036854775808 ≤ k ∧ k < 18446744073709551616 :=
  and_iff_left (Nat.zero_le n)

@[simp] theorem readable_arr : (arr items).Readable (n + 1) ↔ ∀ item ∈ items, item.Readable n := by
  rw [Readable, depth, Nat.succ_le_succ_iff, Sound, soundItems_iff, depthOfItems_le_iff]
  exact forall₂_and.symm

@[simp] theorem readable_obj :
    (obj members).Readable (n + 1) ↔ ∀ member ∈ members, member.2.Readable n := by
  rw [Readable, depth, Nat.succ_le_succ_iff, Sound, soundMembers_iff, depthOfMembers_le_iff]
  exact forall₂_and.symm

theorem depth_eq_zero_of_mem (h : depthOfMembers members = 0) :
    ∀ member ∈ members, member.2.depth = 0 := fun member hmem =>
  Nat.le_zero.1 (depthOfMembers_le_iff.1 h.le member hmem)

/-! ## Drafts -/

mutual

/-- Whoever passes over the draft of a value that has been read meets no fault. -/
theorem skipFault?_draft : ∀ value : Json, value.draft.skipFault? = none
  | .null => rfl
  | .bool _ => rfl
  | .num _ => rfl
  | .str _ => rfl
  | .arr items => by rw [draft, Draft.skipFault?, itemsSkipFault?_draftItems items]; rfl
  | .obj members => by rw [draft, Draft.skipFault?, membersSkipFault?_draftMembers members]; rfl

theorem itemsSkipFault?_draftItems : ∀ items : List Json,
    Draft.itemsSkipFault? (draftItems items) = none
  | [] => rfl
  | item :: items => by
    rw [draftItems, Draft.itemsSkipFault?, skipFault?_draft item, itemsSkipFault?_draftItems items]
    rfl

theorem membersSkipFault?_draftMembers : ∀ members : List (String × Json),
    Draft.membersSkipFault? (draftMembers members) = none
  | [] => rfl
  | (_, value) :: members => by
    rw [draftMembers, draftMember, Draft.membersSkipFault?, Draft.memberSkipFault?,
      skipFault?_draft value, membersSkipFault?_draftMembers members]
    rfl

end

/-- The draft of the text of a value that nests no deeper than the limit. -/
def shown (value : Json) : Draft := value.reread.draft

/-- Members whose keys have been read. -/
def Draft.named (members : List (String × Draft)) : List (Except Fault String × Draft) :=
  members.map fun member => (.ok member.1, member.2)

/-- The keys of members that were written have been read. -/
theorem Draft.ShowsEach.exists_named {depth : ℕ} {drafts : List (Except Fault String × Draft)}
    (h : Draft.ShowsEach depth members drafts) :
    ∃ named, drafts = Draft.named named ∧
      List.Forall₂ (fun member draft => draft.1 = member.1 ∧ draft.2.Shows depth member.2) members
        named := by
  induction h with
  | nil => exact ⟨[], rfl, .nil⟩
  | @cons member draft _ _ h _ ih =>
    obtain ⟨named, rfl, hnamed⟩ := ih
    exact ⟨(member.1, draft.2) :: named, congrArg (· :: _) (Prod.ext h.1 rfl),
      .cons ⟨rfl, h.2⟩ hnamed⟩

theorem shown_arr (items : List Json) : (arr items).shown = .arr none (items.map shown) none := by
  rw [shown, reread, draft]
  congr 1
  induction items with
  | nil => rfl
  | cons item items ih =>
    rw [rereadItems, draftItems, ih]
    rfl

theorem shown_obj (members : List (String × Json)) : (obj members).shown =
    .obj none (Draft.named (members.map fun member => (member.1, member.2.shown))) none := by
  rw [shown, reread, draft]
  congr 1
  induction members with
  | nil => rfl
  | cons member members ih =>
    obtain ⟨key, value⟩ := member
    rw [rereadMembers, draftMembers, ih]
    rfl

theorem shown_int {n : ℤ} (h : -9223372036854775808 ≤ n ∧ n < 18446744073709551616) :
    (int n).shown = .num (.ok (.int n)) := by
  rw [shown, int, reread, rereadNumber_int h, draft]

theorem skipFault?_shown (value : Json) : value.shown.skipFault? = none := skipFault?_draft _

theorem ofText_shown (h : value.Readable depthLimit) :
    Document.ofText value.text = ⟨value.shown, none⟩ := by
  obtain ⟨draft, hdocument, hshows⟩ := ofText_text h.1
  rw [hdocument, hshows.eq (by rw [Nat.zero_add]; exact h.2), shown]

end Ripple.Json
