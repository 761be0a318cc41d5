import Ripple.Proofs.Text.Utf8
import Mathlib.Data.String.Basic

/-!
# The order of texts

Texts are ordered by their characters, and so they are by their bytes (`Utf8.lt_iff_toUTF8_lt`):
where two characters differ, the first of their bytes that differ tell which one is smaller
(`Utf8.before_of_lt`).
-/

namespace Ripple.Utf8

/-- Two texts of bytes of which the first one is smaller where they differ first. -/
def Before (bytes bytes' : List UInt8) : Prop :=
  ∃ common first first' rest rest', bytes = common ++ first :: rest ∧
    bytes' = common ++ first' :: rest' ∧ first < first'

theorem Before.cons {bytes bytes' : List UInt8} {b b' : UInt8}
    (h : b < b' ∨ b = b' ∧ Before bytes bytes') : Before (b :: bytes) (b' :: bytes') := by
  rcases h with hlt | ⟨rfl, common, first, first', rest, rest', rfl, rfl, hlt⟩
  · exact ⟨[], b, b', bytes, bytes', rfl, rfl, hlt⟩
  · exact ⟨b :: common, first, first', rest, rest', rfl, rfl, hlt⟩

/-- The bytes of characters are ordered as the characters are. -/
theorem before_of_lt {c d : Char} (h : c < d) :
    Before (String.utf8EncodeChar c) (String.utf8EncodeChar d) := by
  have hlt : c.val.toNat < d.val.toNat := h
  have hvalid : d.val.toNat < 0x110000 := by
    rcases d.valid with hd | hd
    · exact Nat.lt_trans hd (by decide)
    · exact hd.2
  have hbyte {m n : ℕ} {bytes bytes' : List UInt8} (hn : n < 256)
      (h : m < n ∨ m = n ∧ Before bytes bytes') :
      Before (UInt8.ofNat m :: bytes) (UInt8.ofNat n :: bytes') := by
    refine .cons (h.imp (fun hmn => ?_) fun hmn => ⟨by rw [hmn.1], hmn.2⟩)
    rw [UInt8.lt_iff_toNat_lt]
    simp
    omega
  rw [String.utf8EncodeChar, String.utf8EncodeChar]
  generalize c.val.toNat = m at hlt
  generalize d.val.toNat = n at hlt hvalid
  -- Characters of more bytes have a greater first one; else the bytes are digits.
  split_ifs
  · exact hbyte (by omega) (.inl hlt)
  · exact hbyte (by omega) (.inl (by omega))
  · exact hbyte (by omega) (.inl (by omega))
  · exact hbyte (by omega) (.inl (by omega))
  · omega
  · refine hbyte (by omega) ?_
    by_cases h₁ : m / 64 = n / 64
    · exact .inr ⟨by omega, hbyte (by omega) (.inl (by omega))⟩
    · exact .inl (by omega)
  · exact hbyte (by omega) (.inl (by omega))
  · exact hbyte (by omega) (.inl (by omega))
  · omega
  · omega
  · refine hbyte (by omega) ?_
    by_cases h₁ : m / 4096 = n / 4096
    · refine .inr ⟨by omega, hbyte (by omega) ?_⟩
      by_cases h₂ : m / 64 = n / 64
      · exact .inr ⟨by omega, hbyte (by omega) (.inl (by omega))⟩
      · exact .inl (by omega)
    · exact .inl (by omega)
  · exact hbyte (by omega) (.inl (by omega))
  · omega
  · omega
  · omega
  · refine hbyte (by omega) ?_
    by_cases h₁ : m / 262144 = n / 262144
    · refine .inr ⟨by omega, hbyte (by omega) ?_⟩
      by_cases h₂ : m / 4096 = n / 4096
      · refine .inr ⟨by omega, hbyte (by omega) ?_⟩
        by_cases h₃ : m / 64 = n / 64
        · exact .inr ⟨by omega, hbyte (by omega) (.inl (by omega))⟩
        · exact .inl (by omega)
      · exact .inl (by omega)
    · exact .inl (by omega)

/-- Characters are ordered as their bytes are. -/
theorem flatMap_lt_flatMap {cs ds : List Char} (h : cs < ds) :
    cs.flatMap String.utf8EncodeChar < ds.flatMap String.utf8EncodeChar := by
  induction cs generalizing ds with
  | nil =>
    cases ds with
    | nil => exact absurd h (List.lt_irrefl _)
    | cons d ds =>
      obtain ⟨first, following, hbytes, -⟩ := next_utf8EncodeChar d []
      rw [List.flatMap_cons, hbytes]
      exact List.nil_lt_cons _ _
  | cons c cs ih =>
    cases ds with
    | nil => exact absurd h (List.not_lt_nil _)
    | cons d ds =>
      rw [List.flatMap_cons, List.flatMap_cons]
      rcases List.cons_lt_cons_iff.1 h with hlt | ⟨rfl, hlt⟩
      · obtain ⟨common, first, first', rest, rest', hc, hd, hfirst⟩ := before_of_lt hlt
        rw [hc, hd, List.append_assoc, List.append_assoc]
        exact List.append_left_lt (List.cons_lt_cons_iff.2 (.inl hfirst))
      · exact List.append_left_lt (ih hlt)

theorem toUTF8_eq (text : String) :
    text.toUTF8.data.toList = text.toList.flatMap String.utf8EncodeChar := by
  have hbytes : text.toUTF8 = text.toList.utf8Encode := String.utf8Encode_toList.symm
  rw [hbytes, List.utf8Encode, List.data_toByteArray]

/-- Texts are ordered as their bytes are. -/
theorem lt_iff_toUTF8_lt {a b : String} :
    a < b ↔ a.toUTF8.data.toList < b.toUTF8.data.toList := by
  rw [toUTF8_eq, toUTF8_eq, String.lt_iff]
  refine ⟨flatMap_lt_flatMap, fun h => ?_⟩
  rcases lt_trichotomy a.toList b.toList with hlt | heq | hgt
  · exact hlt
  · rw [heq] at h
    exact absurd h (List.lt_irrefl _)
  · exact absurd (List.lt_trans h (flatMap_lt_flatMap hgt)) (List.lt_irrefl _)

end Ripple.Utf8
