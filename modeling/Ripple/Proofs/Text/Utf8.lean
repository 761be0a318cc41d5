import Ripple.Text.Utf8
import Mathlib.Tactic.Common

/-!
# Characters and their bytes

The bytes of a character are read as the character, whatever follows them
(`Utf8.next_utf8EncodeChar`), and those of a text as the text (`Utf8.decode_flatMap`). A byte below
128 is among the bytes of a character only if it is the character itself
(`Utf8.toNat_of_mem_utf8EncodeChar`), and it is read as this character wherever it stands
(`Utf8.mem_decodeLossy`).
-/

namespace Ripple.Utf8

variable {v : ℕ} {following : List UInt8}

/-- Bytes with six bits each are gathered behind what has been read. -/
theorem gather_tail {low high value count missing b : ℕ} (hb : low ≤ b ∧ b ≤ high ∧ b < 256)
    (rest : List UInt8) : gather value count (low, high) (missing + 1) (UInt8.ofNat b :: rest) =
      gather (value * 64 + b % 64) (count + 1) (0x80, 0xBF) missing rest := by
  have hnat : (UInt8.ofNat b).toNat = b := by simp; omega
  rw [gather, hnat, if_pos ⟨hb.1, hb.2.1⟩]

/-- A first byte says how many bytes follow it, and they give the rest of the character. -/
theorem next_of_gather {b count low high : ℕ} (hb : b < 256)
    (hfollow : follow? b = some (count, low, high)) (rest : List UInt8)
    (hgather : gather (leadBits b count) 1 (low, high) count (following ++ rest) =
      .ok (v, rest)) : next (UInt8.ofNat b) (following ++ rest) = .ok (Char.ofNat v, rest) := by
  have hnat : (UInt8.ofNat b).toNat = b := by simp; omega
  rw [next, hnat, hfollow]
  dsimp only
  rw [hgather]
  rfl

/-- Two bytes follow the first one of three. The bounds of the second one rule out shorter
    characters and surrogates. -/
theorem follow?_three (hv : 0x800 ≤ v ∧ v < 0x10000) (hvalid : v < 0xD800 ∨ 0xDFFF < v) :
    ∃ low high, follow? (v / 4096 % 16 + 224) = some (2, low, high) ∧
      low ≤ v / 64 % 64 + 128 ∧ v / 64 % 64 + 128 ≤ high := by
  rw [follow?, if_neg (by omega), if_neg (by omega), if_neg (by omega)]
  split
  · exact ⟨_, _, rfl, by omega, by omega⟩
  split
  · exact ⟨_, _, rfl, by omega, by omega⟩
  · rw [if_pos (by omega)]
    exact ⟨_, _, rfl, by omega, by omega⟩

/-- Three bytes follow the first one of four. The bounds of the second one rule out shorter
    characters and numbers that are no characters. -/
theorem follow?_four (hv : 0x10000 ≤ v ∧ v < 0x110000) :
    ∃ low high, follow? (v / 262144 % 8 + 240) = some (3, low, high) ∧
      low ≤ v / 4096 % 64 + 128 ∧ v / 4096 % 64 + 128 ≤ high := by
  rw [follow?, if_neg (by omega), if_neg (by omega), if_neg (by omega), if_neg (by omega),
    if_neg (by omega), if_neg (by omega)]
  split
  · exact ⟨_, _, rfl, by omega, by omega⟩
  split
  · exact ⟨_, _, rfl, by omega, by omega⟩
  · rw [if_pos (by omega)]
    exact ⟨_, _, rfl, by omega, by omega⟩

/-- The bytes of a character are read as the character. -/
theorem next_utf8EncodeChar (c : Char) (rest : List UInt8) :
    ∃ first following, String.utf8EncodeChar c = first :: following ∧
      next first (following ++ rest) = .ok (c, rest) := by
  have hvalid : c.val.toNat < 0xD800 ∨ 0xDFFF < c.val.toNat ∧ c.val.toNat < 0x110000 := c.valid
  have hc : Char.ofNat c.val.toNat = c := c.ofNat_toNat
  rw [String.utf8EncodeChar]
  generalize c.val.toNat = v at hvalid hc
  rw [← hc]
  split
  · rename_i h
    have hfollow : follow? v = some (0, 0, 0) := by rw [follow?, if_pos (by omega)]
    exact ⟨_, [], rfl, next_of_gather (by omega) hfollow rest rfl⟩
  split
  · rename_i h
    have hfollow : follow? (v / 64 % 32 + 192) = some (1, 0x80, 0xBF) := by
      rw [follow?, if_neg (by omega), if_neg (by omega), if_pos (by omega)]
    refine ⟨_, [_], rfl, next_of_gather (by omega) hfollow rest ?_⟩
    rw [List.singleton_append, gather_tail (by omega), gather]
    congr 2
    simp only [leadBits]
    omega
  split
  · rename_i h
    obtain ⟨low, high, hfollow, hlow, hhigh⟩ := follow?_three (v := v) (by omega) (by omega)
    refine ⟨_, [_, _], rfl, next_of_gather (by omega) hfollow rest ?_⟩
    rw [List.cons_append, gather_tail (by omega), List.singleton_append, gather_tail (by omega),
      gather]
    congr 2
    simp only [leadBits]
    omega
  · rename_i h₁ h₂ h₃
    obtain ⟨low, high, hfollow, hlow, hhigh⟩ := follow?_four (v := v) (by omega)
    refine ⟨_, [_, _, _], rfl, next_of_gather (by omega) hfollow rest ?_⟩
    rw [List.cons_append, gather_tail (by omega), List.cons_append, gather_tail (by omega),
      List.singleton_append, gather_tail (by omega), gather]
    congr 2
    simp only [leadBits]
    omega

/-- The bytes of a text are read as the text. -/
theorem decode_flatMap (cs : List Char) : decode (cs.flatMap String.utf8EncodeChar) = .ok cs := by
  have hfrom : ∀ (fuel passed : ℕ), (cs.flatMap String.utf8EncodeChar).length ≤ fuel →
      decodeFrom passed fuel (cs.flatMap String.utf8EncodeChar) = .ok cs := by
    induction cs with
    | nil => intro fuel passed _; cases fuel <;> rfl
    | cons c cs ih =>
      intro fuel passed hfuel
      obtain ⟨first, following, hbytes, hnext⟩ :=
        next_utf8EncodeChar c (cs.flatMap String.utf8EncodeChar)
      rw [List.flatMap_cons, hbytes] at hfuel ⊢
      rw [List.length_append, List.length_cons] at hfuel
      obtain ⟨fuel, rfl⟩ : ∃ f, fuel = f + 1 := ⟨fuel - 1, by omega⟩
      rw [List.cons_append, decodeFrom, hnext]
      dsimp only
      rw [ih fuel _ (by omega)]
      rfl
  exact hfrom _ 0 (Nat.le_refl _)

/-! ## Characters of one byte -/

/-- A byte below 128 is the character itself. -/
theorem toNat_of_mem_utf8EncodeChar {c : Char} {b : UInt8} (h : b ∈ String.utf8EncodeChar c)
    (hb : b.toNat < 128) : b.toNat = c.toNat := by
  have hlarge {n : ℕ} (hn : 128 ≤ n ∧ n < 256) : ¬(UInt8.ofNat n).toNat < 128 := by simp; omega
  rw [String.utf8EncodeChar] at h
  split at h
  · rename_i hc
    rw [List.mem_singleton.1 h]
    exact Nat.mod_eq_of_lt (Nat.lt_of_le_of_lt hc (by decide))
  split at h
  · simp only [List.mem_cons, List.not_mem_nil, or_false] at h
    rcases h with rfl | rfl <;> exact absurd hb (hlarge (by omega))
  split at h
  · simp only [List.mem_cons, List.not_mem_nil, or_false] at h
    rcases h with rfl | rfl | rfl <;> exact absurd hb (hlarge (by omega))
  · simp only [List.mem_cons, List.not_mem_nil, or_false] at h
    rcases h with rfl | rfl | rfl | rfl <;> exact absurd hb (hlarge (by omega))

/-- Only bytes of at least 128 are gathered, so a smaller one is left. -/
theorem mem_of_gather {b : UInt8} (hb : b.toNat < 128) (value count low high : ℕ) {missing : ℕ}
    (hlow : missing = 0 ∨ 128 ≤ low) {rest : List UInt8} (hmem : b ∈ rest) :
    match gather value count (low, high) missing rest with
    | .ok (_, after) => b ∈ after ∧ after.length ≤ rest.length
    | .error (.invalid n) => ∃ used, n = count + used ∧ b ∈ rest.drop used
    | .error .incomplete => False := by
  induction missing generalizing value count low high rest with
  | zero => exact ⟨hmem, Nat.le_refl _⟩
  | succ missing ih =>
    cases rest with
    | nil => exact absurd hmem List.not_mem_nil
    | cons first rest =>
      rw [gather]
      split_ifs with hbounds
      · have hne : b ≠ first := by
          rintro rfl
          omega
        have hrest := (List.mem_cons.1 hmem).resolve_left hne
        have hnext := ih (value * 64 + first.toNat % 64) (count + 1) 0x80 0xBF
          (.inr (Nat.le_refl _)) hrest
        revert hnext
        split
        · exact fun h => ⟨h.1, Nat.le_succ_of_le h.2⟩
        · rintro ⟨used, rfl, hused⟩
          exact ⟨used + 1, by omega, hused⟩
        · exact id
      · exact ⟨0, rfl, hmem⟩

theorem follow?_of_lt {v : ℕ} (h : v < 128) : follow? v = some (0, 0, 0) := by
  rw [follow?, if_pos h]

/-- A byte that follows a first one is at least 128. -/
theorem le_of_follow? {v n low high : ℕ} (h : follow? v = some (n, low, high)) :
    n = 0 ∨ 128 ≤ low := by
  rw [follow?] at h
  split_ifs at h <;> simp_all <;> omega

/-- A character of one byte is read wherever it stands, whatever is spoilt around it. -/
theorem mem_decodeLossy {b : UInt8} (hb : b.toNat < 128) {bytes : List UInt8} (hmem : b ∈ bytes) :
    Char.ofNat b.toNat ∈ decodeLossy bytes := by
  have hfrom (fuel : ℕ) : ∀ bytes : List UInt8, bytes.length ≤ fuel → b ∈ bytes →
      Char.ofNat b.toNat ∈ lossyFrom fuel bytes := by
    induction fuel with
    | zero =>
      intro bytes hfuel hmem
      obtain rfl := List.length_eq_zero_iff.1 (Nat.le_zero.1 hfuel)
      exact absurd hmem List.not_mem_nil
    | succ fuel ih =>
      intro bytes hfuel hmem
      cases bytes with
      | nil => exact absurd hmem List.not_mem_nil
      | cons first rest =>
        rw [List.length_cons] at hfuel
        rw [lossyFrom, next]
        rcases List.mem_cons.1 hmem with rfl | hrest
        · rw [follow?_of_lt hb]
          exact List.mem_cons_self
        cases hfollow : follow? first.toNat with
        | none => exact List.mem_cons_of_mem _ (ih rest (by omega) hrest)
        | some bounds =>
          obtain ⟨n, low, high⟩ := bounds
          have hgather := mem_of_gather hb (leadBits first.toNat n) 1 low high
            (le_of_follow? hfollow) hrest
          dsimp only
          cases hbytes : gather (leadBits first.toNat n) 1 (low, high) n rest with
          | ok gathered =>
            rw [hbytes] at hgather
            exact List.mem_cons_of_mem _ (ih _ (Nat.le_trans hgather.2 (by omega)) hgather.1)
          | error flaw =>
            rw [hbytes] at hgather
            cases flaw with
            | incomplete => exact hgather.elim
            | invalid count =>
              obtain ⟨used, rfl, hused⟩ := hgather
              have hdrop : (first :: rest).drop (1 + used) = rest.drop used := by
                rw [Nat.add_comm, List.drop_succ_cons]
              refine List.mem_cons_of_mem _ ?_
              rw [hdrop]
              refine ih _ ?_ hused
              rw [List.length_drop]
              omega
  exact hfrom _ bytes (Nat.le_refl _) hmem

end Ripple.Utf8
