import Ripple.Toml.Number
import Ripple.Proofs.Number.Numeral

/-!
# Reading numbers of TOML back

The digits of a number that fits 64 bits, at the end of a line, are read as the number
(`read_toDigits`).
-/

namespace Ripple.Toml.Number

variable {cs rest : List Char} {n : ℕ} {c : Char}

theorem digit?_of_isDigit (h : c.isDigit) : digit? 10 c = some (c.toNat - 48) := by
  have := digit_le h
  rw [digit?, if_pos h, Option.filter_some, if_pos (by simpa using Nat.lt_succ_of_le this)]

/-- Digits are read up to the end of the line. -/
theorem moreDigits_append (h : ∀ c ∈ cs, c.isDigit) :
    moreDigits 10 (cs ++ '\n' :: rest) = some (cs.map (·.toNat - 48), '\n' :: rest) := by
  induction cs with
  | nil =>
    have hbreak : digit? 10 '\n' = none := rfl
    rw [List.nil_append, moreDigits.eq_def]
    simp [hbreak]
  | cons c cs ih =>
    rw [List.forall_mem_cons] at h
    have hline : c ≠ '_' := by
      rintro rfl
      exact absurd h.1 (by decide)
    rw [List.cons_append, moreDigits.eq_def]
    simp [hline, digit?_of_isDigit h.1, ih h.2]

theorem digits_append (h : ∀ c ∈ cs, c.isDigit) (hne : cs ≠ []) :
    digits 10 (cs ++ '\n' :: rest) = some (cs.map (·.toNat - 48), '\n' :: rest) := by
  obtain ⟨c, cs, rfl⟩ := List.exists_cons_of_ne_nil hne
  rw [List.forall_mem_cons] at h
  rw [List.cons_append, digits, digit?_of_isDigit h.1, moreDigits_append h.2]
  rfl

theorem value_map (cs : List Char) :
    value 10 (cs.map (·.toNat - 48)) = Nat.ofDigitChars 10 cs 0 := by
  have hzero : '0'.toNat = 48 := rfl
  rw [value, List.foldl_map, Nat.ofDigitChars_eq_foldl]
  simp only [hzero, Nat.mul_comm]

/-- The digits of a number are read whole. -/
theorem wholeDigits_toDigits (n : ℕ) : wholeDigits (Nat.toDigits 10 n ++ '\n' :: rest) =
    some ((Nat.toDigits 10 n).map (·.toNat - 48), '\n' :: rest) := by
  rcases Nat.eq_zero_or_pos n with rfl | hpos
  · rfl
  · have hfirst := head_toDigits_ne_zero hpos
    rw [wholeDigits.eq_def]
    split
    · rename_i hcs
      have hhead := congrArg List.head? hcs
      rw [List.head?_append_of_ne_nil _ Nat.toDigits_ne_nil] at hhead
      exact absurd hhead hfirst
    · exact digits_append (isNumeral_toDigits n).digits Nat.toDigits_ne_nil

/-- After a digit, and another one or the end of the line, there is no mark of a base, no sign and
    no word. -/
theorem number_of_digit {first second : Char} (hfirst : first.isDigit)
    (hsecond : second.isDigit ∨ second = '\n') :
    number (first :: second :: rest) = decimal false (first :: second :: rest) := by
  have hne {d : Char} (hd : ¬d.isDigit) : first ≠ d := by
    rintro rfl
    exact hd hfirst
  have hne' {d : Char} (hd : ¬d.isDigit) (hbreak : '\n' ≠ d) : second ≠ d := by
    rintro rfl
    exact hsecond.elim hd fun h => hbreak h.symm
  have hx : second ≠ 'x' := hne' (by decide) (by decide)
  have ho : second ≠ 'o' := hne' (by decide) (by decide)
  have hb : second ≠ 'b' := hne' (by decide) (by decide)
  have hplus : first ≠ '+' := hne (by decide)
  have hminus : first ≠ '-' := hne (by decide)
  have hinf : first ≠ 'i' := hne (by decide)
  have hnan : first ≠ 'n' := hne (by decide)
  rw [number.eq_def]
  simp [hx, ho, hb, hplus, hminus, hinf, hnan, sign, word?]

/-- The digits of a number that fits 64 bits are read as the number, up to the end of the line. -/
theorem read_toDigits (hn : (n : ℤ) ≤ maxInteger) :
    read (Nat.toDigits 10 n ++ '\n' :: rest) = some (.integer n, '\n' :: rest) := by
  have hnumeral := isNumeral_toDigits n
  have hend : ∀ c ∈ ('\n' :: rest).head?, ¬c.isDigit := by simp
  have hdate : beginsDate (Nat.toDigits 10 n ++ '\n' :: rest) = (false, false) := by
    simp [beginsDate, hnumeral.takeWhile_append hend, hnumeral.dropWhile_append hend]
  have hdecimal : decimal false (Nat.toDigits 10 n ++ '\n' :: rest) =
      some (.integer n, '\n' :: rest) := by
    have hleast : minInteger ≤ n := by
      have : minInteger ≤ 0 := by decide
      omega
    have hinteger : integer? n = some (.integer n) := if_pos ⟨hleast, hn⟩
    rw [decimal, wholeDigits_toDigits]
    simp [value_map, hinteger]
  have hnumber : number (Nat.toDigits 10 n ++ '\n' :: rest) =
      decimal false (Nat.toDigits 10 n ++ '\n' :: rest) := by
    have hdigits := hnumeral.digits
    rcases hcs : Nat.toDigits 10 n with _ | ⟨first, _ | ⟨second, more⟩⟩
    · exact absurd hcs Nat.toDigits_ne_nil
    · exact number_of_digit (hdigits first (by simp [hcs])) (.inr rfl)
    · exact number_of_digit (hdigits first (by simp [hcs])) (.inl (hdigits second (by simp [hcs])))
  rw [read, hdate]
  exact hnumber.trans hdecimal

end Ripple.Toml.Number
