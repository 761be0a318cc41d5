import Ripple.Number.Double
import Mathlib.Algebra.Order.Field.Power
import Mathlib.Data.Rat.Cast.Order
import Mathlib.Tactic.FieldSimp
import Mathlib.Tactic.Linarith
import Mathlib.Tactic.NormNum
import Mathlib.Tactic.Positivity
import Mathlib.Tactic.Ring

/-!
# Rounding to doubles

The magnitude nearest to a ratio exceeds it by half a unit of its last bit at most, which
is one part in `2 ^ 53` (`Magnitude.toRat_le_of_ofRatio?`), and there is one unless the
ratio lies half a unit beyond the largest (`Magnitude.ofRatio?_isSome`). So the digits of a
decimal and its power of ten can be rounded and multiplied if their product keeps twice
that distance (`Magnitude.ofDecimal?_isSome`).
-/

namespace Ripple.Magnitude

/-- The number that a magnitude stands for. -/
def toRat (m : Magnitude) : ℚ := m.significand * 2 ^ m.exponent

/-- Half a unit beyond the largest magnitude. Ratios from there on are too large. -/
def bound : ℚ := (2 ^ 54 - 1) * 2 ^ (970 : ℤ)

theorem ratio_pos (m : Magnitude) : 0 < m.ratio.2 := by
  rw [ratio]
  split
  · exact Nat.one_pos
  · exact Nat.pow_pos Nat.two_pos

theorem ratio_eq (m : Magnitude) : (m.ratio.1 : ℚ) / m.ratio.2 = m.toRat := by
  rw [ratio, toRat]
  split
  · rename_i h
    obtain ⟨k, hk⟩ := Int.eq_ofNat_of_zero_le h
    simp [hk]
  · rename_i h
    obtain ⟨k, hk⟩ := Int.eq_ofNat_of_zero_le (show 0 ≤ -m.exponent by omega)
    rw [show m.exponent = -(k : ℤ) by omega]
    simp [div_eq_mul_inv]

variable {num den : ℕ}

theorem scaleDown_pos (hden : 0 < den) (exponent : ℤ) : 0 < (scaleDown num den exponent).2 := by
  rw [scaleDown]
  split
  · exact Nat.mul_pos hden (Nat.pow_pos Nat.two_pos)
  · exact hden

theorem scaleDown_eq (num den : ℕ) (exponent : ℤ) :
    ((scaleDown num den exponent).1 : ℚ) / (scaleDown num den exponent).2 =
      num / den / 2 ^ exponent := by
  rw [scaleDown]
  split
  · rename_i h
    obtain ⟨k, hk⟩ := Int.eq_ofNat_of_zero_le h
    simp [hk, div_div]
  · rename_i h
    obtain ⟨k, hk⟩ := Int.eq_ofNat_of_zero_le (show 0 ≤ -exponent by omega)
    rw [show exponent = -(k : ℤ) by omega]
    simp [div_mul_eq_mul_div]

theorem roundHalfEven_le (hden : 0 < den) : (roundHalfEven num den : ℚ) ≤ num / den + 1 / 2 := by
  have htwice : 2 * (roundHalfEven num den * den) ≤ 2 * num + den := by
    have hsplit := Nat.div_add_mod num den
    dsimp only [roundHalfEven]
    generalize num / den = quotient at *
    generalize num % den = rest at *
    split
    · rename_i h
      have hhalf : den ≤ 2 * rest := by
        simp only [Bool.or_eq_true, decide_eq_true_eq, Bool.and_eq_true, beq_iff_eq] at h
        omega
      nlinarith
    · nlinarith
  have hpos : (0 : ℚ) < den := by exact_mod_cast hden
  have hcast : 2 * ((roundHalfEven num den : ℚ) * den) ≤ 2 * num + den := by exact_mod_cast htwice
  rw [div_add_div _ _ hpos.ne' two_ne_zero, le_div_iff₀ (by positivity)]
  linarith

/-- Where the exponent is not the least one, the significand fills its 53 bits. -/
theorem exponentOf_le (hnum : 0 < num) (hden : 0 < den) (h : minExponent < exponentOf num den) :
    2 ^ 52 * 2 ^ exponentOf num den ≤ (num / den : ℚ) := by
  have hden' : (0 : ℚ) < den := by exact_mod_cast hden
  have hnumlog : (2 ^ num.log2 : ℚ) ≤ num := by exact_mod_cast Nat.log2_self_le hnum.ne'
  have hdenlog : (den : ℚ) < 2 ^ (den.log2 + 1) := by exact_mod_cast Nat.lt_log2_self
  -- The guess is too large by one at most.
  have hguess : 2 ^ 52 * (2 : ℚ) ^ ((num.log2 : ℤ) - den.log2 - 52 - 1) ≤ num / den := by
    rw [le_div_iff₀ hden']
    have hexp : 2 ^ 52 * (2 : ℚ) ^ ((num.log2 : ℤ) - den.log2 - 52 - 1) * 2 ^ (den.log2 + 1) =
        2 ^ num.log2 := by
      rw [← zpow_natCast, ← zpow_natCast, ← zpow_natCast, ← zpow_add₀ two_ne_zero,
        ← zpow_add₀ two_ne_zero]
      congr 1
      push_cast
      ring
    have hle := mul_le_mul_of_nonneg_left hdenlog.le
      (show 0 ≤ 2 ^ 52 * (2 : ℚ) ^ ((num.log2 : ℤ) - den.log2 - 52 - 1) by positivity)
    linarith
  rw [exponentOf] at h ⊢
  dsimp only at h ⊢
  generalize (num.log2 : ℤ) - den.log2 - 52 = guess at *
  have hscale := scaleDown_eq num den guess
  have hpos : 0 < (scaleDown num den guess).2 := scaleDown_pos hden guess
  generalize scaleDown num den guess = scaled at *
  rw [max_eq_right (by omega)]
  split
  · exact hguess
  · rename_i hfull
    have hfull : (2 ^ 52 * scaled.2 : ℚ) ≤ scaled.1 := by exact_mod_cast not_lt.1 hfull
    rw [← le_div_iff₀ (by exact_mod_cast hpos), hscale, le_div_iff₀ (by positivity)] at hfull
    exact hfull

/-- The significand of a ratio, before it is seen that it may fill 54 bits. -/
def rounded (num den : ℕ) : ℕ :=
  roundHalfEven (scaleDown num den (exponentOf num den)).1
    (scaleDown num den (exponentOf num den)).2

/-- The magnitude of a significand that may be the first of 54 bits. -/
def carry (significand : ℕ) (exponent : ℤ) : Magnitude :=
  if significand == 2 ^ 53 then ⟨2 ^ 52, exponent + 1⟩ else ⟨significand, exponent⟩

theorem toRat_carry (significand : ℕ) (exponent : ℤ) :
    (carry significand exponent).toRat = significand * 2 ^ exponent := by
  rw [carry]
  split
  · rename_i h
    rw [toRat, eq_of_beq h, zpow_add_one₀ two_ne_zero]
    push_cast
    ring
  · rfl

theorem ofRatio?_of_pos (hnum : 0 < num) : ofRatio? num den =
    if (carry (rounded num den) (exponentOf num den)).exponent > maxExponent then none
    else some (carry (rounded num den) (exponentOf num den)) := by
  rw [ofRatio?, if_neg (by simpa using hnum.ne')]
  rfl

/-- What rounding gives exceeds the ratio by half a unit of its last bit at most. -/
theorem rounded_le (num : ℕ) (hden : 0 < den) :
    (rounded num den : ℚ) * 2 ^ exponentOf num den ≤ num / den + 2 ^ exponentOf num den / 2 := by
  have hround : (rounded num den : ℚ) ≤ num / den / 2 ^ exponentOf num den + 1 / 2 := by
    rw [← scaleDown_eq]
    exact roundHalfEven_le (scaleDown_pos hden _)
  calc _ ≤ (num / den / 2 ^ exponentOf num den + 1 / 2 : ℚ) * 2 ^ exponentOf num den := by gcongr
    _ = num / den + 2 ^ exponentOf num den / 2 := by field_simp

/-- A ratio of at least one is exceeded by one part in `2 ^ 53` at most. -/
theorem toRat_le_of_ofRatio? {r : Magnitude} (hden : 0 < den) (hle : den ≤ num)
    (h : ofRatio? num den = some r) : r.toRat ≤ num / den * (1 + 1 / 2 ^ 53) := by
  have hnum : 0 < num := hden.trans_le hle
  have hone : (1 : ℚ) ≤ num / den := by
    rw [one_le_div (by exact_mod_cast hden)]
    exact_mod_cast hle
  have hhalf : (2 : ℚ) ^ exponentOf num den / 2 ≤ num / den * (1 / 2 ^ 53) := by
    rcases eq_or_ne (exponentOf num den) minExponent with hmin | hmin
    · -- The least exponent makes for an error far below any part of one.
      have hsmall : (2 : ℚ) ^ minExponent / 2 ≤ 1 / 2 ^ 53 := by
        have : (2 : ℚ) ^ minExponent ≤ 2 ^ (-52 : ℤ) :=
          zpow_le_zpow_right₀ one_le_two (by decide)
        norm_num at this ⊢
        linarith
      rw [hmin]
      linarith
    · -- The significand has all its bits, and a unit of the last one is a small part of it.
      have hbits := exponentOf_le hnum hden (lt_of_le_of_ne (le_max_left _ _) (Ne.symm hmin))
      linarith
  rw [ofRatio?_of_pos hnum] at h
  split at h
  · exact nomatch h
  · rw [← Option.some.inj h, toRat_carry]
    linarith [rounded_le num hden]

/-- A ratio that does not lie half a unit beyond the largest magnitude can be rounded. -/
theorem ofRatio?_isSome (hden : 0 < den) (h : (num / den : ℚ) < bound) :
    (ofRatio? num den).isSome := by
  rcases Nat.eq_zero_or_pos num with rfl | hnum
  · rfl
  -- With a larger exponent the ratio would not lie below the bound.
  have hexponent : exponentOf num den ≤ 971 := by
    by_contra hlarge
    have hbits := exponentOf_le hnum hden (by rw [minExponent]; omega)
    have hpow : (2 : ℚ) ^ (972 : ℤ) ≤ 2 ^ exponentOf num den :=
      zpow_le_zpow_right₀ one_le_two (by omega)
    rw [show (972 : ℤ) = 970 + 2 from rfl, zpow_add₀ two_ne_zero] at hpow
    rw [bound] at h
    have hpos : (0 : ℚ) < 2 ^ (970 : ℤ) := by positivity
    generalize (2 : ℚ) ^ (970 : ℤ) = unit at *
    linarith
  have hcarry : ¬(carry (rounded num den) (exponentOf num den)).exponent > maxExponent := by
    rw [carry, maxExponent]
    split
    · -- A carry beyond the greatest exponent comes from a ratio that is rounded to the bound.
      rename_i hfull
      intro hlarge
      have hle := rounded_le num hden
      dsimp only at hlarge
      rw [eq_of_beq hfull, show exponentOf num den = 970 + 1 by omega,
        zpow_add_one₀ two_ne_zero] at hle
      rw [bound] at h
      generalize (2 : ℚ) ^ (970 : ℤ) = unit at *
      push_cast at hle
      linarith
    · exact not_lt.2 hexponent
  rw [ofRatio?_of_pos hnum, if_neg hcarry]
  rfl

/-! ## Decimals -/

variable {digits : ℕ} {power : ℤ}

theorem mul?_isSome {a b : Magnitude} (h : a.toRat * b.toRat < bound) : (a.mul? b).isSome := by
  refine ofRatio?_isSome (Nat.mul_pos a.ratio_pos b.ratio_pos) ?_
  rw [Nat.cast_mul, Nat.cast_mul, mul_div_mul_comm, ratio_eq, ratio_eq]
  exact h

/-- A natural number is exceeded by one part in `2 ^ 53` at most. -/
theorem toRat_getD_le {n : ℕ} (hn : 0 < n) :
    ((ofRatio? n 1).getD zero).toRat ≤ n * (1 + 1 / 2 ^ 53) := by
  cases h : ofRatio? n 1 with
  | none =>
    have : zero.toRat = 0 := by simp [toRat, zero]
    rw [Option.getD_none, this]
    positivity
  | some r =>
    have := toRat_le_of_ofRatio? Nat.one_pos hn h
    rwa [Nat.cast_one, div_one] at this

theorem toRat_nonneg (m : Magnitude) : 0 ≤ m.toRat := by
  rw [toRat]
  positivity

/-- Digits and a power of ten can be rounded and multiplied if there is room for both errors. -/
theorem ofDecimal?_isSome (hdigits : 0 < digits) (hpower : power ≤ maxTenPower)
    (h : (digits * 10 ^ power * (1 + 1 / 2 ^ 53) ^ 2 : ℚ) < bound) :
    (ofDecimal? digits power).isSome := by
  dsimp only [ofDecimal?]
  split
  · rfl
  · rename_i hneg
    obtain ⟨k, rfl⟩ := Int.eq_ofNat_of_zero_le (not_lt.1 hneg)
    rw [zpow_natCast] at h
    rw [Int.toNat_natCast, if_pos (by exact_mod_cast hpower)]
    refine mul?_isSome (lt_of_le_of_lt ?_ h)
    calc (ofNat digits).toRat * (tenTo k).toRat
        ≤ (digits * (1 + 1 / 2 ^ 53)) * ((10 ^ k : ℕ) * (1 + 1 / 2 ^ 53)) :=
          mul_le_mul (toRat_getD_le hdigits) (toRat_getD_le (Nat.pow_pos (by decide)))
            (toRat_nonneg _) (by positivity)
      _ = digits * 10 ^ k * (1 + 1 / 2 ^ 53) ^ 2 := by push_cast; ring

end Ripple.Magnitude
