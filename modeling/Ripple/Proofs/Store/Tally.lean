import Ripple.Proofs.Store.History
import Ripple.Proofs.Text.ByteOrder
import Mathlib.Algebra.BigOperators.Group.List.Lemmas
import Mathlib.Data.List.Sort

/-!
# Counting labels

A tally lists each label once, with the number of times that it occurs (`Tables.perm_tally`), and
in an order in which no two counts are tied (`Tables.pairwise_tally`). So it depends on how often
the labels occur and not on the order in which they are counted (`Tables.tally_eq_of_perm`).

`Tables.IsTally` says the same of any list of counts, and that is enough to know how often a label
occurs (`Tables.IsTally.getD_lookup`) and how many labels there are (`Tables.IsTally.sum_eq`).
-/

namespace Ripple.Tables

variable {label : String} {labels labels' : List String}

theorem nodup_eraseDups (labels : List String) : labels.eraseDups.Nodup := by
  induction labels using List.reverseRecOn with
  | nil => exact .nil
  | append_singleton labels label ih =>
    rw [eraseDups_append_singleton]
    split
    · exact ih
    · rename_i h
      exact List.nodup_append.2 ⟨ih, List.nodup_singleton label, fun key hkey other hother he =>
        h (List.mem_singleton.1 hother ▸ he ▸ List.mem_eraseDups.1 hkey)⟩

/-! ## Counts -/

/-- To count a label that has been counted changes its count. -/
theorem countLabel_of_mem {keys : List String} (hkeys : keys.Nodup) (h : label ∈ keys)
    (n : String → ℕ) : countLabel label (keys.map fun key => (key, n key)) =
      keys.map fun key => (key, if label = key then n key + 1 else n key) := by
  induction keys with
  | nil => exact absurd h List.not_mem_nil
  | cons key keys ih =>
    rw [List.nodup_cons] at hkeys
    by_cases hkey : key = label
    · -- The label does not occur again.
      subst hkey
      have hrest : keys.map (fun other => (other, if key = other then n other + 1 else n other)) =
          keys.map fun other => (other, n other) :=
        List.map_congr_left fun other hother => by
          rw [if_neg (ne_of_mem_of_not_mem hother hkeys.1).symm]
      rw [List.map_cons, List.map_cons, countLabel, if_pos rfl, if_pos rfl, hrest]
    · have h : label ∈ keys := (List.mem_cons.1 h).resolve_left (Ne.symm hkey)
      rw [List.map_cons, List.map_cons, countLabel, if_neg hkey, if_neg (Ne.symm hkey),
        ih hkeys.2 h]

/-- A label that has not been counted is counted once, at the end. -/
theorem countLabel_of_not_mem {keys : List String} (h : label ∉ keys) (n : String → ℕ) :
    countLabel label (keys.map fun key => (key, n key)) =
      (keys.map fun key => (key, n key)) ++ [(label, 1)] := by
  induction keys with
  | nil => rfl
  | cons key keys ih =>
    rw [List.mem_cons, not_or] at h
    rw [List.map_cons, countLabel, if_neg (Ne.symm h.1), ih h.2, List.cons_append]

/-- Labels that are counted one by one have each been counted as often as they occur. -/
theorem foldl_countLabel (labels : List String) :
    labels.foldl (fun counts label => countLabel label counts) [] =
      labels.eraseDups.map fun label => (label, labels.count label) := by
  induction labels using List.reverseRecOn with
  | nil => rfl
  | append_singleton labels label ih =>
    rw [List.foldl_append, List.foldl_cons, List.foldl_nil, ih, eraseDups_append_singleton]
    by_cases h : label ∈ labels
    · rw [if_pos h, countLabel_of_mem (nodup_eraseDups labels) (List.mem_eraseDups.2 h)]
      refine List.map_congr_left fun key _ => ?_
      rw [List.count_append, List.count_singleton]
      by_cases hkey : label = key <;> simp [hkey]
    · rw [if_neg h, countLabel_of_not_mem (mt List.mem_eraseDups.1 h), List.map_append,
        List.map_singleton]
      congr 1
      · refine List.map_congr_left fun key hkey => ?_
        have hne : label ≠ key := (ne_of_mem_of_not_mem (List.mem_eraseDups.1 hkey) h).symm
        rw [List.count_append, List.count_singleton]
        simp [hne]
      · rw [List.count_append, List.count_eq_zero.2 h, List.count_singleton_self, zero_add]

/-! ## Their order -/

theorem countsBefore_iff {a b : String × ℕ} :
    countsBefore a b ↔ b.2 < a.2 ∨ (a.2 = b.2 ∧ a.1 ≤ b.1) := by
  simp only [countsBefore, Bool.or_eq_true, Bool.and_eq_true, Bool.not_eq_true', decide_eq_true_eq,
    decide_eq_false_iff_not, beq_iff_eq, gt_iff_lt, String.not_lt]

theorem countsBefore_trans (a b c : String × ℕ) (hab : countsBefore a b)
    (hbc : countsBefore b c) : countsBefore a c := by
  rw [countsBefore_iff] at *
  rcases hab with hab | ⟨hab, hle⟩
  · exact .inl (by omega)
  · rcases hbc with hbc | ⟨hbc, hle'⟩
    · exact .inl (by omega)
    · exact .inr ⟨hab.trans hbc, String.le_trans hle hle'⟩

theorem countsBefore_total (a b : String × ℕ) : countsBefore a b || countsBefore b a := by
  rw [Bool.or_eq_true, countsBefore_iff, countsBefore_iff]
  rcases lt_trichotomy a.2 b.2 with hlt | heq | hlt
  · exact .inr (.inl hlt)
  · exact (String.le_total a.1 b.1).imp (fun h => .inr ⟨heq, h⟩) fun h => .inr ⟨heq.symm, h⟩
  · exact .inl (.inl hlt)

theorem countsBefore_antisymm {a b : String × ℕ} (hab : countsBefore a b)
    (hba : countsBefore b a) : a = b := by
  rw [countsBefore_iff] at hab hba
  have heq : a.2 = b.2 := by omega
  exact Prod.ext (String.le_antisymm (hab.resolve_left (by omega)).2
    (hba.resolve_left (by omega)).2) heq

/-! ## Tallies -/

/-- A tally lists each label once, with the number of times that it occurs. -/
theorem perm_tally (labels : List String) :
    (tally labels).Perm (labels.eraseDups.map fun label => (label, labels.count label)) := by
  rw [tally, foldl_countLabel]
  exact List.mergeSort_perm _ _

/-- A tally is in order. -/
theorem pairwise_tally (labels : List String) :
    (tally labels).Pairwise fun a b => countsBefore a b :=
  List.pairwise_mergeSort countsBefore_trans countsBefore_total _

/-- The order in which labels are counted does not matter. -/
theorem tally_eq_of_perm (h : labels.Perm labels') : tally labels = tally labels' := by
  have hkeys : labels.eraseDups.Perm labels'.eraseDups :=
    (List.perm_ext_iff_of_nodup (nodup_eraseDups labels) (nodup_eraseDups labels')).2
      fun label => by rw [List.mem_eraseDups, List.mem_eraseDups, h.mem_iff]
  have hcounts : (fun label => (label, labels.count label)) =
      fun label => (label, labels'.count label) := funext fun label => by rw [h.count_eq]
  have hperm : (tally labels).Perm (tally labels') := by
    refine (perm_tally labels).trans (.trans ?_ (perm_tally labels').symm)
    rw [hcounts]
    exact hkeys.map _
  exact hperm.eq_of_pairwise (fun a b _ _ => countsBefore_antisymm) (pairwise_tally labels)
    (pairwise_tally labels')

/-- How often each of some labels occurs, the most frequent first. -/
structure IsTally (counts : List (String × ℕ)) (labels : List String) : Prop where
  /-- The counts are those of the labels that occur. -/
  mem_iff (label : String) (n : ℕ) : (label, n) ∈ counts ↔ 0 < n ∧ n = labels.count label
  nodup : (counts.map Prod.fst).Nodup
  /-- Larger counts come first, and equal ones in the order of the bytes of their labels. -/
  ordered : counts.Pairwise fun a b => b.2 < a.2 ∨
    a.2 = b.2 ∧ a.1.toUTF8.data.toList < b.1.toUTF8.data.toList

theorem isTally_tally (labels : List String) : IsTally (tally labels) labels := by
  have hkeys : ((tally labels).map Prod.fst).Nodup := by
    rw [((perm_tally labels).map Prod.fst).nodup_iff, List.map_map]
    exact (List.map_id _).symm ▸ nodup_eraseDups labels
  refine ⟨fun label n => ?_, hkeys, ?_⟩
  · rw [(perm_tally labels).mem_iff, List.mem_map]
    constructor
    · rintro ⟨_, hlabel, heq⟩
      obtain ⟨rfl, rfl⟩ := Prod.mk.inj heq
      exact ⟨List.count_pos_iff.2 (List.mem_eraseDups.1 hlabel), rfl⟩
    · rintro ⟨hpos, rfl⟩
      exact ⟨label, List.mem_eraseDups.2 (List.count_pos_iff.1 hpos), rfl⟩
  · -- Labels of equal counts are in order, and no two are the same.
    refine ((pairwise_tally labels).and (List.pairwise_map.1 hkeys)).imp ?_
    rintro a b ⟨hbefore, hne⟩
    refine (countsBefore_iff.1 hbefore).imp_right fun ⟨heq, hle⟩ => ⟨heq, ?_⟩
    rw [← Utf8.lt_iff_toUTF8_lt]
    exact lt_of_le_of_ne hle hne

namespace IsTally

variable {counts : List (String × ℕ)}

/-- The count of a label is how often it occurs. -/
theorem getD_lookup (h : IsTally counts labels) (label : String) :
    (counts.lookup label).getD 0 = labels.count label := by
  cases hlookup : counts.lookup label with
  | some n =>
    obtain ⟨before, after, hcounts, -⟩ := List.lookup_eq_some_iff.1 hlookup
    have hmem : (label, n) ∈ counts := hcounts ▸ List.mem_append_right _ List.mem_cons_self
    exact ((h.mem_iff label n).1 hmem).2
  | none =>
    by_contra hne
    have hpos : 0 < labels.count label := Nat.pos_of_ne_zero (Ne.symm hne)
    have hkey := List.lookup_eq_none_iff.1 hlookup _ ((h.mem_iff label _).2 ⟨hpos, rfl⟩)
    simp at hkey

/-- The labels that are listed are those that occur. -/
theorem mem_keys_iff (h : IsTally counts labels) (label : String) :
    label ∈ counts.map Prod.fst ↔ 0 < labels.count label := by
  rw [List.mem_map]
  constructor
  · rintro ⟨⟨_, n⟩, hcount, rfl⟩
    obtain ⟨hpos, rfl⟩ := (h.mem_iff _ _).1 hcount
    exact hpos
  · exact fun hpos => ⟨_, (h.mem_iff label _).2 ⟨hpos, rfl⟩, rfl⟩

/-- The counts make up the number of labels. -/
theorem sum_eq (h : IsTally counts labels) : (counts.map Prod.snd).sum = labels.length := by
  have hcounts : counts.map Prod.snd = (counts.map Prod.fst).map labels.count := by
    rw [List.map_map]
    exact List.map_congr_left fun count hcount => ((h.mem_iff count.1 count.2).1 hcount).2
  have hkeys : (counts.map Prod.fst).Perm labels.dedup := by
    refine (List.perm_ext_iff_of_nodup h.nodup labels.nodup_dedup).2 fun label => ?_
    rw [h.mem_keys_iff, List.count_pos_iff, List.mem_dedup]
  rw [hcounts, (hkeys.map _).sum_eq, List.sum_map_count_dedup_eq_length]

end IsTally

end Ripple.Tables
