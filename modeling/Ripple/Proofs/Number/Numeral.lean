import Mathlib.Data.List.Basic
import Mathlib.Data.List.TakeWhile
import Mathlib.Algebra.Ring.Nat

/-!
# Numerals

A numeral is a list of digits that stands for a natural number, with zeros before it or
not. The digits that a number is written with are one (`isNumeral_toDigits`), and the only one
with no zero before it (`IsNumeral.eq_toDigits`).
-/

namespace Ripple

/-- Digits that stand for a number. -/
structure IsNumeral (cs : List Char) (n : ℕ) : Prop where
  /-- All characters are digits. -/
  digits : ∀ c ∈ cs, c.isDigit
  /-- Their value is the number. -/
  value : Nat.ofDigitChars 10 cs 0 = n

theorem isNumeral_toDigits (n : ℕ) : IsNumeral (Nat.toDigits 10 n) n :=
  ⟨fun _ hc => Nat.isDigit_of_mem_toDigits (by decide) (by decide) hc,
    Nat.ofDigitChars_ten_toDigits⟩

/-- A number is less than the power of ten that its digits count. -/
theorem lt_ten_pow_length_toDigits (n : ℕ) : n < 10 ^ (Nat.toDigits 10 n).length :=
  (Nat.length_toDigits_le_iff (by decide) Nat.length_toDigits_pos).1 le_rfl

/-- The leading digit of a number is not zero, so it is not less than its power of ten. -/
theorem ten_pow_le_of_length_toDigits {n : ℕ} (h : 0 < n) :
    10 ^ ((Nat.toDigits 10 n).length - 1) ≤ n := by
  rcases Nat.eq_zero_or_pos ((Nat.toDigits 10 n).length - 1) with hone | hmore
  · rw [hone]
    exact h
  · by_contra hlt
    have := (Nat.length_toDigits_le_iff (by decide) hmore).2 (not_le.1 hlt)
    omega

/-- The digits of a number begin with a zero only if they are a single one. -/
theorem head_toDigits_ne_zero {n : ℕ} (h : 0 < n) : (Nat.toDigits 10 n).head? ≠ some '0' := by
  induction n using Nat.strongRecOn with
  | _ n ih =>
    rw [Nat.toDigits_eq_if (by decide)]
    split
    · simp only [List.head?_cons, ne_eq, Option.some.injEq, Nat.digitChar_eq_zero]
      omega
    · rw [List.head?_append_of_ne_nil _ Nat.toDigits_ne_nil]
      exact ih (n / 10) (by omega) (by omega)

/-- The value of a digit. -/
theorem digit_le {c : Char} (h : c.isDigit) : c.toNat - 48 ≤ 9 := by
  have : c.toNat ≤ 57 := (Char.isDigit_iff_toNat.1 h).2
  omega

/-- Digits are appended to a number from the first one on. -/
theorem ofDigitChars_ten_cons (c : Char) (cs : List Char) (number : ℕ) :
    Nat.ofDigitChars 10 (c :: cs) number =
      Nat.ofDigitChars 10 cs (number * 10 + (c.toNat - 48)) := by
  have hzero : '0'.toNat = 48 := rfl
  rw [Nat.ofDigitChars_cons, hzero, Nat.mul_comm]

/-- A number does not become less by digits that are appended. -/
theorem le_ofDigitChars (cs : List Char) (number : ℕ) : number ≤ Nat.ofDigitChars 10 cs number := by
  rw [Nat.ofDigitChars_eq_ofDigitChars_zero]
  exact (Nat.le_mul_of_pos_left _ (Nat.pow_pos (by decide))).trans (Nat.le_add_right _ _)

/-- A digit is what its value is written with. -/
theorem toDigits_digit {c : Char} (h : c.isDigit) : Nat.toDigits 10 (c.toNat - 48) = [c] := by
  have hchars : ∀ d < 10, d.digitChar = Char.ofNat (48 + d) := by decide
  have hlt : c.toNat - 48 < 10 := Nat.lt_succ_of_le (digit_le h)
  have hle : 48 ≤ c.toNat := (Char.isDigit_iff_toNat.1 h).1
  rw [Nat.toDigits_of_lt_base hlt, hchars _ hlt, Nat.add_sub_cancel' hle, Char.ofNat_toNat]

/-- A number with digits appended to it is written with its digits and these. -/
theorem toDigits_ofDigitChars {cs : List Char} (hdigits : ∀ c ∈ cs, c.isDigit) {number : ℕ}
    (hnumber : 0 < number) :
    Nat.toDigits 10 (Nat.ofDigitChars 10 cs number) = Nat.toDigits 10 number ++ cs := by
  induction cs generalizing number with
  | nil => rw [List.append_nil, Nat.ofDigitChars_nil]
  | cons c cs ih =>
    obtain ⟨hc, hcs⟩ := List.forall_mem_cons.1 hdigits
    have hzero : '0'.toNat = 48 := rfl
    rw [Nat.ofDigitChars_cons, hzero, ih hcs (by omega), ← Nat.toDigits_append_toDigits (by decide)
      hnumber (Nat.lt_succ_of_le (digit_le hc)), toDigits_digit hc, List.append_assoc]
    rfl

namespace IsNumeral

variable {cs rest : List Char} {n : ℕ}

/-- Zeros before a numeral do not count. -/
theorem replicate_append (h : IsNumeral cs n) (k : ℕ) :
    IsNumeral (List.replicate k '0' ++ cs) n where
  digits c hc := by
    rcases List.mem_append.1 hc with hc | hc
    · rw [List.eq_of_mem_replicate hc]
      rfl
    · exact h.digits c hc
  value := by simp [Nat.ofDigitChars_append, h.value]

/-- A numeral that does not begin with a zero is what its number is written with. -/
theorem eq_toDigits {c : Char} (h : IsNumeral (c :: cs) n) (hc : c ≠ '0') :
    Nat.toDigits 10 n = c :: cs := by
  obtain ⟨hdigit, hdigits⟩ := List.forall_mem_cons.1 h.digits
  have hzero : '0'.toNat = 48 := rfl
  have hpos : 0 < c.toNat - 48 := by
    have hle : 48 ≤ c.toNat := (Char.isDigit_iff_toNat.1 hdigit).1
    have hne : c.toNat ≠ 48 := fun heq => hc (Char.toNat_inj.1 (heq.trans hzero.symm))
    omega
  rw [← h.value, Nat.ofDigitChars_cons, hzero, Nat.mul_zero, Nat.zero_add,
    toDigits_ofDigitChars hdigits hpos, toDigits_digit hdigit]
  rfl

/-- A zero after a numeral multiplies it by ten. -/
theorem append_replicate (h : IsNumeral cs n) (k : ℕ) :
    IsNumeral (cs ++ List.replicate k '0') (10 ^ k * n) where
  digits c hc := by
    rcases List.mem_append.1 hc with hc | hc
    · exact h.digits c hc
    · rw [List.eq_of_mem_replicate hc]
      rfl
  value := by rw [Nat.ofDigitChars_append, h.value, Nat.ofDigitChars_replicate_zero]

/-- Some digits, whatever they stand for. -/
theorem of_digits (h : ∀ c ∈ cs, c.isDigit) : IsNumeral cs (Nat.ofDigitChars 10 cs 0) := ⟨h, rfl⟩

theorem left {cs' : List Char} (h : IsNumeral (cs ++ cs') n) :
    IsNumeral cs (Nat.ofDigitChars 10 cs 0) :=
  .of_digits fun c hc => h.digits c (List.mem_append_left _ hc)

theorem right {cs' : List Char} (h : IsNumeral (cs ++ cs') n) :
    IsNumeral cs' (Nat.ofDigitChars 10 cs' 0) :=
  .of_digits fun c hc => h.digits c (List.mem_append_right _ hc)

/-- What is appended to a number, a numeral appends. -/
theorem ofDigitChars (h : IsNumeral cs n) (number : ℕ) :
    Nat.ofDigitChars 10 cs number = 10 ^ cs.length * number + n := by
  rw [Nat.ofDigitChars_eq_ofDigitChars_zero, h.value]

theorem takeWhile_append (h : IsNumeral cs n) (hrest : ∀ c ∈ rest.head?, ¬c.isDigit) :
    (cs ++ rest).takeWhile Char.isDigit = cs := by
  rw [List.takeWhile_append_of_pos h.digits]
  cases rest with
  | nil => simp
  | cons c rest =>
    rw [List.takeWhile_cons_of_neg (hrest c rfl), List.append_nil]

theorem dropWhile_append (h : IsNumeral cs n) (hrest : ∀ c ∈ rest.head?, ¬c.isDigit) :
    (cs ++ rest).dropWhile Char.isDigit = rest := by
  rw [List.dropWhile_append_of_pos h.digits]
  cases rest with
  | nil => rfl
  | cons c rest => rw [List.dropWhile_cons_of_neg (hrest c rfl)]

end IsNumeral

end Ripple
