import Ripple.Number.Shortest
import Ripple.Proofs.Number.Numeral
import Ripple.Proofs.Number.Rounding

/-!
# The decimals of doubles

The shortest decimal of a positive magnitude is found in the interval of the magnitude, or
just below its middle (`Magnitude.Interval.finds_firstHit`). Either way its digits
fit 64 bits and are not all zero, and it is not above the upper end of the interval
(`Magnitude.near_shortest`). So it is small enough to be read back as some double
(`Magnitude.shortest_ofDecimal?_isSome`), which need not be the one that was written.
-/

namespace Ripple.Magnitude

namespace Interval

variable {i : Interval} {digits : ℕ} {power leading : ℤ}

theorem place_eq : ((i.place digits power).1 : ℚ) =
    digits * 10 ^ power * i.unit * (i.place digits power).2 := by
  rw [place]
  split
  · rename_i h
    obtain ⟨k, rfl⟩ := Int.eq_ofNat_of_zero_le h
    simp
  · rename_i h
    obtain ⟨k, hk⟩ := Int.eq_ofNat_of_zero_le (show 0 ≤ -power by omega)
    rw [show power = -(k : ℤ) by omega]
    simp [field]

theorem place_pos : 0 < (i.place digits power).2 := by
  rw [place]
  split
  · exact Nat.one_pos
  · exact Nat.pow_pos (by decide)

/-- A decimal in the interval lies between its ends. -/
theorem between_of_holds (h : i.holds digits power) :
    (i.low : ℚ) ≤ digits * 10 ^ power * i.unit ∧ digits * 10 ^ power * i.unit ≤ (i.high : ℚ) := by
  have hends : i.low * (i.place digits power).2 ≤ (i.place digits power).1 ∧
      (i.place digits power).1 ≤ i.high * (i.place digits power).2 := by
    rw [holds] at h
    dsimp only at h
    split at h
    · simpa using h
    · simp only [Bool.and_eq_true, decide_eq_true_eq] at h
      exact ⟨h.1.le, h.2.le⟩
  have hpos : (0 : ℚ) < (i.place digits power).2 := by exact_mod_cast place_pos
  have hlow : (i.low * (i.place digits power).2 : ℚ) ≤ (i.place digits power).1 := by
    exact_mod_cast hends.1
  have hhigh : ((i.place digits power).1 : ℚ) ≤ i.high * (i.place digits power).2 := by
    exact_mod_cast hends.2
  rw [place_eq] at hlow hhigh
  exact ⟨le_of_mul_le_mul_right hlow hpos, le_of_mul_le_mul_right hhigh hpos⟩

theorem zpow_neg_mul_le (k unit middle : ℕ) :
    (10 ^ (-(k : ℤ)) * unit : ℚ) ≤ middle ↔ unit ≤ 10 ^ k * middle := by
  rw [zpow_neg, zpow_natCast, inv_mul_le_iff₀ (by positivity)]
  exact_mod_cast Iff.rfl

theorem le_zpow_neg_mul (k unit middle : ℕ) :
    (middle : ℚ) ≤ 10 ^ (-(k : ℤ)) * unit ↔ 10 ^ k * middle ≤ unit := by
  rw [zpow_neg, zpow_natCast, le_inv_mul_iff₀ (by positivity)]
  exact_mod_cast Iff.rfl

theorem floor_le : (i.floor power * 10 ^ power * i.unit : ℚ) ≤ i.middle := by
  rw [floor]
  split
  · rename_i h
    obtain ⟨k, rfl⟩ := Int.eq_ofNat_of_zero_le h
    have := Nat.div_mul_le_self i.middle (10 ^ k * i.unit)
    rw [zpow_natCast, Int.toNat_natCast, mul_assoc]
    exact_mod_cast this
  · rename_i h
    obtain ⟨k, hk⟩ := Int.eq_ofNat_of_zero_le (show 0 ≤ -power by omega)
    have hle : ((i.middle * 10 ^ k / i.unit : ℕ) * i.unit : ℚ) ≤ i.middle * 10 ^ k := by
      exact_mod_cast Nat.div_mul_le_self (i.middle * 10 ^ k) i.unit
    rw [show power = -(k : ℤ) by omega, neg_neg, Int.toNat_natCast, zpow_neg, zpow_natCast,
      mul_right_comm, ← div_eq_mul_inv, div_le_iff₀ (by positivity)]
    exact hle

theorem floor_pos (hunit : 0 < i.unit) (h : (10 ^ power * i.unit : ℚ) ≤ i.middle) :
    0 < i.floor power := by
  rw [floor]
  split
  · rename_i hpower
    obtain ⟨k, rfl⟩ := Int.eq_ofNat_of_zero_le hpower
    rw [zpow_natCast] at h
    exact Nat.div_pos (by exact_mod_cast h) (Nat.mul_pos (Nat.pow_pos (by decide)) hunit)
  · rename_i hpower
    obtain ⟨k, hk⟩ := Int.eq_ofNat_of_zero_le (show 0 ≤ -power by omega)
    rw [show power = -(k : ℤ) by omega, zpow_neg_mul_le] at h
    rw [show power = -(k : ℤ) by omega, neg_neg, Int.toNat_natCast, mul_comm]
    exact Nat.div_pos h hunit

/-- What is found on a grid is on it and in the interval. -/
theorem of_onGrid?_eq_some {d : Decimal} (h : i.onGrid? power = some d) :
    d.power = power ∧ i.holds d.digits d.power := by
  rw [onGrid?] at h
  dsimp only at h
  split at h
  · rename_i hlower _
    rw [← Option.some.inj h]
    exact ⟨rfl, hlower⟩
  · rename_i _ hupper
    rw [← Option.some.inj h]
    exact ⟨rfl, hupper⟩
  · exact nomatch h
  · rename_i hlower hupper
    split at h
    · rw [← Option.some.inj h]
      exact ⟨rfl, hlower⟩
    · rw [← Option.some.inj h]
      exact ⟨rfl, hupper⟩

/-- What a search from `count` digits on may find in `tries` grids: not zero, not above the
    upper end, and on one of these grids or the next one. -/
structure Finds (i : Interval) (leading : ℤ) (count tries : ℕ) (hit : Decimal) : Prop where
  pos : 0 < hit.digits
  le_high : (hit.digits * 10 ^ hit.power * i.unit : ℚ) ≤ i.high
  le_power : leading + 1 - (count + tries : ℕ) ≤ hit.power

variable (hlow : 0 < i.low) (hmiddle : i.middle ≤ i.high)
  (hleading : (10 ^ leading * i.unit : ℚ) ≤ i.middle)

include hlow hmiddle hleading in
theorem finds_firstHit (hunit : 0 < i.unit) (tries : ℕ) {count : ℕ} (hcount : 0 < count) :
    i.Finds leading count tries (i.firstHit leading count tries) := by
  induction tries generalizing count with
  | zero =>
    have hgrid : (10 ^ (leading + 1 - count) * i.unit : ℚ) ≤ i.middle := by
      refine le_trans ?_ hleading
      gcongr
      · norm_num
      · omega
    exact ⟨floor_pos hunit hgrid, floor_le.trans (by exact_mod_cast hmiddle), le_rfl⟩
  | succ tries ih =>
    -- A grid without a hit leaves the search to the next one, which has one place more.
    rw [firstHit]
    cases h : i.onGrid? (leading + 1 - count) with
    | none =>
      have hlater := ih (Nat.succ_pos count)
      exact ⟨hlater.pos, hlater.le_high, le_trans (by push_cast; omega) hlater.le_power⟩
    | some d =>
      obtain ⟨hpower, hholds⟩ := of_onGrid?_eq_some h
      have hends := between_of_holds hholds
      refine ⟨Nat.pos_of_ne_zero fun hzero => ?_, hends.2, ?_⟩
      · rw [Option.getD_some] at hzero
        rw [hzero, Nat.cast_zero, zero_mul, zero_mul] at hends
        exact absurd hends.1 (not_le.2 (by exact_mod_cast hlow))
      · rw [Option.getD_some, hpower]
        omega

/-! ## The leading digit -/

theorem length_toString (n : ℕ) : (toString n).length = (Nat.toDigits 10 n).length := by
  rw [← String.length_toList, Nat.toString_eq_repr, Nat.toList_repr]

/-- A quotient lies between the powers of ten that its number of digits tells. -/
theorem length_toDigits_div {num den : ℕ} (hden : 0 < den) (hle : den ≤ num) :
    ∃ k, (Nat.toDigits 10 (num / den)).length = k + 1 ∧ 10 ^ k * den ≤ num ∧
      num ≤ 10 ^ (k + 1) * den := by
  obtain ⟨k, hk⟩ : ∃ k, (Nat.toDigits 10 (num / den)).length = k + 1 :=
    Nat.exists_eq_add_one.2 Nat.length_toDigits_pos
  have hlower := ten_pow_le_of_length_toDigits (Nat.div_pos hle hden)
  have hupper := lt_ten_pow_length_toDigits (num / den)
  rw [hk] at hlower hupper
  refine ⟨k, hk, (Nat.mul_le_mul_right _ hlower).trans (Nat.div_mul_le_self num den), ?_⟩
  calc num ≤ den * (num / den + 1) := (Nat.lt_mul_div_succ num hden).le
    _ ≤ den * 10 ^ (k + 1) := Nat.mul_le_mul_left _ hupper
    _ = 10 ^ (k + 1) * den := Nat.mul_comm ..

/-- The leading power of ten is the one that the middle begins with, or the next one down. -/
theorem leadingPower_spec (hpos : 0 < i.middle) (hunit : 0 < i.unit) :
    (10 ^ i.leadingPower * i.unit : ℚ) ≤ i.middle ∧
      (i.middle : ℚ) ≤ 10 ^ (i.leadingPower + 1) * i.unit := by
  rw [leadingPower]
  dsimp only
  rw [length_toString, length_toString]
  split
  · rename_i hlarge
    obtain ⟨k, hk, hlower, hupper⟩ := length_toDigits_div hunit hlarge
    rw [hk, Nat.cast_succ, add_sub_cancel_right, ← Nat.cast_succ, zpow_natCast, zpow_natCast]
    exact ⟨by exact_mod_cast hlower, by exact_mod_cast hupper⟩
  · rename_i hsmall
    obtain ⟨k, hk, hlower, hupper⟩ := length_toDigits_div hpos (not_le.1 hsmall).le
    have hmiddle : (i.middle : ℚ) ≤ 10 ^ (-(k : ℤ)) * i.unit := (le_zpow_neg_mul ..).2 hlower
    rw [hk]
    split
    · -- The unit is the middle times a power of ten, which the middle then is itself.
      rename_i hexact
      rw [Nat.add_sub_cancel, Bool.and_eq_true, beq_iff_eq, beq_iff_eq] at hexact
      have hunit' : i.unit = 10 ^ k * i.middle := by
        rw [← Nat.pow_eq, ← hexact.1, Nat.div_mul_cancel (Nat.dvd_of_mod_eq_zero hexact.2)]
      have hnonneg : (0 : ℚ) ≤ 10 ^ (-(k : ℤ)) * i.unit := by positivity
      rw [show (1 - (k + 1 : ℕ) : ℤ) = -k by omega, zpow_add_one₀ (by norm_num)]
      exact ⟨(zpow_neg_mul_le ..).2 hunit'.le, by linarith⟩
    · rw [show (-(k + 1 : ℕ) + 1 : ℤ) = -k by omega]
      exact ⟨(zpow_neg_mul_le ..).2 hupper, hmiddle⟩

theorem leadingPower_eq (hunit : 0 < i.unit) {k : ℕ} (hlow : 10 ^ k * i.unit < i.middle)
    (hhigh : i.middle < 10 ^ (k + 1) * i.unit) : i.leadingPower = k := by
  obtain ⟨hle, hlt⟩ := leadingPower_spec ((Nat.zero_le _).trans_lt hlow) hunit
  have hlow : (10 ^ (k : ℤ) * i.unit : ℚ) < i.middle := by exact_mod_cast hlow
  have hhigh : (i.middle : ℚ) < 10 ^ ((k : ℤ) + 1) * i.unit := by exact_mod_cast hhigh
  have hunit : (0 : ℚ) < i.unit := by exact_mod_cast hunit
  have hbelow := lt_of_mul_lt_mul_right (hle.trans_lt hhigh) hunit.le
  have habove := lt_of_mul_lt_mul_right (hlow.trans_le hlt) hunit.le
  rw [zpow_lt_zpow_iff_right₀ (by norm_num)] at hbelow habove
  omega

end Interval

/-! ## The shortest decimal -/

variable {m : Magnitude}

/-- The upper end of the numbers that round to a magnitude. -/
def ceiling (m : Magnitude) : ℚ := (4 * m.significand + 2) * 2 ^ (m.exponent - 2)

theorem interval_unit_pos (m : Magnitude) : 0 < m.interval.unit := by
  rw [interval]
  dsimp only
  split
  · exact Nat.one_pos
  · exact Nat.pow_pos Nat.two_pos

theorem interval_spec (m : Magnitude) : ∃ scale below : ℕ, 0 < scale ∧ below ≤ 2 ∧
    m.interval.low = (4 * m.significand - below) * scale ∧
    m.interval.middle = 4 * m.significand * scale ∧
    m.interval.high = (4 * m.significand + 2) * scale ∧
    (scale : ℚ) = 2 ^ (m.exponent - 2) * m.interval.unit := by
  have hbelow : (if m.significand == 2 ^ 52 && m.exponent > minExponent then 1 else 2) ≤ 2 := by
    split <;> decide
  rw [interval]
  dsimp only
  by_cases h : m.exponent ≥ 2
  · rw [if_pos h]
    obtain ⟨k, hk⟩ := Int.eq_ofNat_of_zero_le (show 0 ≤ m.exponent - 2 by omega)
    refine ⟨_, _, Nat.pow_pos Nat.two_pos, hbelow, rfl, rfl, rfl, ?_⟩
    rw [hk]
    simp
  · rw [if_neg h]
    obtain ⟨k, hk⟩ := Int.eq_ofNat_of_zero_le (show 0 ≤ 2 - m.exponent by omega)
    refine ⟨_, _, Nat.one_pos, hbelow, rfl, rfl, rfl, ?_⟩
    rw [show m.exponent - 2 = -(k : ℤ) by omega, hk]
    simp

theorem interval_middle (m : Magnitude) : (m.interval.middle : ℚ) = m.toRat * m.interval.unit := by
  obtain ⟨scale, _, _, _, _, hmiddle, _, heq⟩ := interval_spec m
  rw [hmiddle, toRat, show m.exponent = m.exponent - 2 + 2 by ring, zpow_add₀ two_ne_zero]
  push_cast
  rw [heq]
  ring

theorem interval_high (m : Magnitude) : (m.interval.high : ℚ) = m.ceiling * m.interval.unit := by
  obtain ⟨scale, _, _, _, _, _, hhigh, heq⟩ := interval_spec m
  rw [hhigh, ceiling, mul_assoc, ← heq]
  push_cast
  rfl

/-- The ends of the interval of a magnitude that is not zero enclose its middle, and the upper
    one is at most twice as large. -/
theorem interval_ends (h : 0 < m.significand) : 0 < m.interval.low ∧
    m.interval.low ≤ m.interval.middle ∧ m.interval.middle ≤ m.interval.high ∧
      m.interval.high ≤ 2 * m.interval.middle := by
  obtain ⟨scale, below, hscale, hbelow, hlow, hmiddle, hhigh, -⟩ := interval_spec m
  rw [hlow, hmiddle, hhigh, ← mul_assoc 2]
  exact ⟨Nat.mul_pos (by omega) hscale, Nat.mul_le_mul_right _ (by omega),
    Nat.mul_le_mul_right _ (by omega), Nat.mul_le_mul_right _ (by omega)⟩

/-- A decimal that is written for a magnitude: it has a digit that is not zero, but no more
    digits than 64 bits hold, it is not above the numbers that round to the magnitude, and its
    last digit is at most 18 places below the first one of the magnitude. -/
structure Near (m : Magnitude) (d : Decimal) : Prop where
  pos : 0 < d.digits
  digits_lt : d.digits < UInt64.size
  le_ceiling : (d.digits * 10 ^ d.power : ℚ) ≤ m.ceiling
  toRat_le : m.toRat ≤ 10 ^ (d.power + 18)

theorem near_firstHit (h : 0 < m.significand) :
    m.Near (m.interval.firstHit m.interval.leadingPower 1 17) := by
  obtain ⟨hlow, hbelow, hle, htwice⟩ := interval_ends h
  have hmiddle := interval_middle m
  have hhigh := interval_high m
  obtain ⟨hleading, hnext⟩ :=
    Interval.leadingPower_spec (hlow.trans_le hbelow) (interval_unit_pos m)
  have hfinds := Interval.finds_firstHit hlow hle hleading (interval_unit_pos m) 17 Nat.one_pos
  have hunit : (0 : ℚ) < m.interval.unit := by exact_mod_cast interval_unit_pos m
  have htwice : (m.interval.high : ℚ) ≤ 2 * m.interval.middle := by exact_mod_cast htwice
  generalize m.interval.firstHit m.interval.leadingPower 1 17 = hit at *
  have hgrid : (10 : ℚ) ^ (m.interval.leadingPower + 1) ≤ 10 ^ (hit.power + 18) :=
    zpow_le_zpow_right₀ (by norm_num) (by have := hfinds.le_power; push_cast at this; omega)
  refine ⟨hfinds.pos, ?_, le_of_mul_le_mul_right (hhigh ▸ hfinds.le_high) hunit, ?_⟩
  · -- The upper end is below twice the next power of ten, 18 places above the last digit.
    have hplace : (0 : ℚ) < 10 ^ hit.power * m.interval.unit := by positivity
    have hdigits : (hit.digits * (10 ^ hit.power * m.interval.unit) : ℚ) ≤
        (2 * 10 ^ 18 : ℕ) * (10 ^ hit.power * m.interval.unit) :=
      calc _ = (hit.digits * 10 ^ hit.power * m.interval.unit : ℚ) := by ring
        _ ≤ 2 * (10 ^ (m.interval.leadingPower + 1) * m.interval.unit) := by
          linarith [hfinds.le_high]
        _ ≤ 2 * (10 ^ (hit.power + 18) * m.interval.unit) := by gcongr
        _ = _ := by
          rw [zpow_add₀ (by norm_num)]
          push_cast
          ring
    have hdigits : hit.digits ≤ 2 * 10 ^ 18 := by
      exact_mod_cast le_of_mul_le_mul_right hdigits hplace
    exact hdigits.trans_lt (by decide)
  · rw [hmiddle] at hnext
    exact (le_of_mul_le_mul_right hnext hunit).trans hgrid

theorem near_shortest (h : 0 < m.significand) : m.Near m.shortest := by
  have hnear := near_firstHit h
  dsimp only [shortest]
  generalize m.interval.firstHit m.interval.leadingPower 1 17 = hit at *
  split
  · rename_i hzero
    have hten : hit.digits = hit.digits / 10 * 10 :=
      (Nat.div_mul_cancel (Nat.dvd_of_mod_eq_zero (eq_of_beq hzero))).symm
    have hpos := hnear.pos
    have hlt := hnear.digits_lt
    have hceiling := hnear.le_ceiling
    have hrat := hnear.toRat_le
    refine ⟨by dsimp only; omega, by dsimp only; omega, ?_, ?_⟩
    · rw [hten] at hceiling
      rw [zpow_add_one₀ (by norm_num)]
      push_cast at hceiling
      linarith
    · exact hrat.trans (zpow_le_zpow_right₀ (by norm_num) (by dsimp only; omega))
  · exact hnear

/-- The bounds of the magnitudes of finite doubles. -/
def Finite (m : Magnitude) : Prop :=
  m.significand < 2 ^ 53 ∧ minExponent ≤ m.exponent ∧ m.exponent ≤ maxExponent

theorem ceiling_le {n : ℕ} {exponent : ℤ} (hm : m.significand ≤ n)
    (h : m.exponent ≤ exponent + 1) : m.ceiling ≤ (2 * n + 1) * 2 ^ exponent := by
  have hexp : (2 : ℚ) ^ (m.exponent - 2) ≤ 2 ^ (exponent - 1) :=
    zpow_le_zpow_right₀ one_le_two (by omega)
  have hm : (m.significand : ℚ) ≤ n := by exact_mod_cast hm
  calc m.ceiling ≤ (4 * n + 2) * 2 ^ (exponent - 1) :=
        mul_le_mul (by linarith) hexp (by positivity) (by positivity)
    _ = (2 * n + 1) * 2 ^ exponent := by
        rw [zpow_sub_one₀ two_ne_zero]
        ring

theorem bound_lt : bound < 10 ^ (309 : ℤ) := by
  have htwo : (2 ^ 54 * 2 ^ (970 : ℤ) : ℚ) = (2 ^ 64) ^ 16 := by
    rw [← zpow_natCast, ← zpow_add₀ two_ne_zero, ← pow_mul, ← zpow_natCast]
    rfl
  have hten : (10 ^ (309 : ℤ) : ℚ) = 10 ^ 21 * (10 ^ 18) ^ 16 := by
    rw [← pow_mul, ← pow_add, ← zpow_natCast]
    rfl
  calc bound < 2 ^ 54 * 2 ^ (970 : ℤ) := by
        rw [bound]
        gcongr
        norm_num
    _ ≤ (19 * 10 ^ 18) ^ 16 := by
        rw [htwo]
        gcongr
        norm_num
    _ < 10 ^ (309 : ℤ) := by
        rw [hten, mul_pow]
        gcongr
        norm_num

theorem shortest_power_le (h : 0 < m.significand) (hm : m.Finite) :
    m.shortest.power ≤ maxTenPower := by
  have hpos := (near_shortest h).pos
  have hvalue := (near_shortest h).le_ceiling
  by_contra hlarge
  have hpower : (10 : ℚ) ^ (309 : ℤ) ≤ 10 ^ m.shortest.power :=
    zpow_le_zpow_right₀ (by norm_num) (by rw [maxTenPower] at hlarge; omega)
  have hone : (10 : ℚ) ^ m.shortest.power ≤ m.shortest.digits * 10 ^ m.shortest.power :=
    le_mul_of_one_le_left (by positivity) (by exact_mod_cast hpos)
  have hceiling : m.ceiling ≤ (2 * (2 ^ 53 - 1 : ℕ) + 1) * 2 ^ (970 : ℤ) :=
    ceiling_le (Nat.le_sub_one_of_lt hm.1) hm.2.2
  have := bound_lt
  rw [bound] at this
  generalize (2 : ℚ) ^ (970 : ℤ) = unit at *
  push_cast at hceiling
  linarith

theorem le_shortest_power (h : 0 < m.significand) (hm : m.Finite) : -400 ≤ m.shortest.power := by
  -- A decimal of a lesser power is too small even for the least magnitude.
  by_contra hsmall
  have hpower : (10 : ℚ) ^ (m.shortest.power + 18) ≤ 10 ^ (-358 : ℤ) :=
    zpow_le_zpow_right₀ (by norm_num) (by omega)
  have hten : (10 : ℚ) ^ (-358 : ℤ) < (2 ^ 3) ^ (-358 : ℤ) := by
    rw [zpow_neg, zpow_neg]
    exact inv_strictAnti₀ (by positivity)
      (zpow_lt_zpow_left₀ (by norm_num) (by norm_num) (by norm_num))
  have htwo : ((2 : ℚ) ^ 3) ^ (-358 : ℤ) = 2 ^ minExponent := by
    rw [← zpow_natCast, ← zpow_mul]
    rfl
  have hleast : (2 : ℚ) ^ minExponent ≤ m.toRat :=
    calc (2 : ℚ) ^ minExponent ≤ 2 ^ m.exponent := zpow_le_zpow_right₀ one_le_two hm.2.1
      _ ≤ m.toRat := le_mul_of_one_le_left (by positivity) (by exact_mod_cast h)
  have := (near_shortest h).toRat_le
  linarith

/-- The decimals of the three largest doubles. -/
theorem shortest_largest {k : ℕ} (hk : k < 3) :
    shortest ⟨2 ^ 53 - 3 + k, maxExponent⟩ = ⟨17976931348623153 + 2 * k, 292⟩ := by
  have hplace : ∀ k < 3, 10 ^ 308 * (interval ⟨2 ^ 53 - 3 + k, maxExponent⟩).unit <
      (interval ⟨2 ^ 53 - 3 + k, maxExponent⟩).middle ∧
      (interval ⟨2 ^ 53 - 3 + k, maxExponent⟩).middle <
        10 ^ (308 + 1) * (interval ⟨2 ^ 53 - 3 + k, maxExponent⟩).unit := by decide +kernel
  have hhit : ∀ k < 3, (interval ⟨2 ^ 53 - 3 + k, maxExponent⟩).firstHit 308 1 17 =
      ⟨17976931348623153 + 2 * k, 292⟩ := by decide +kernel
  have hlast : ∀ k < 3, ¬(17976931348623153 + 2 * k) % 10 = 0 := by decide
  dsimp only [shortest]
  rw [Interval.leadingPower_eq (interval_unit_pos _) (hplace k hk).1 (hplace k hk).2,
    Nat.cast_ofNat, hhit k hk, if_neg (by simpa using hlast k hk)]

theorem ofDecimal?_largest_isSome :
    ∀ k < 3, (ofDecimal? (17976931348623153 + 2 * k) 292).isSome := by decide +kernel

/-- The shortest decimal of a finite double leaves room for the rounding of its digits and of
    its power of ten, unless it belongs to one of the three largest. -/
theorem shortest_ofDecimal?_isSome (h : 0 < m.significand) (hm : m.Finite) :
    (ofDecimal? m.shortest.digits m.shortest.power).isSome := by
  have hpos := (near_shortest h).pos
  have hvalue := (near_shortest h).le_ceiling
  have hlarge : m.significand ≤ 2 ^ 53 - 4 ∨ m.exponent < maxExponent ∨
      ∃ k < 3, m = ⟨2 ^ 53 - 3 + k, maxExponent⟩ := by
    obtain ⟨hsignificand, -, hexponent⟩ := hm
    by_cases hs : m.significand ≤ 2 ^ 53 - 4
    · exact .inl hs
    · rcases eq_or_lt_of_le hexponent with he | he
      · refine .inr (.inr ⟨m.significand - (2 ^ 53 - 3), by omega, ?_⟩)
        rw [← he, show 2 ^ 53 - 3 + (m.significand - (2 ^ 53 - 3)) = m.significand by omega]
      · exact .inr (.inl he)
  -- A smaller significand or a smaller exponent leaves room below the bound. The magnitudes
  -- that have neither leave none to an estimate: their decimals are read as they are.
  rcases hlarge with hs | he | ⟨k, hk, rfl⟩
  · refine ofDecimal?_isSome hpos (shortest_power_le h hm) ?_
    have hceiling : m.ceiling ≤ (2 * (2 ^ 53 - 4 : ℕ) + 1) * 2 ^ (970 : ℤ) :=
      ceiling_le hs hm.2.2
    have hunit : (0 : ℚ) < 2 ^ (970 : ℤ) := by positivity
    rw [bound]
    generalize (2 : ℚ) ^ (970 : ℤ) = unit at *
    push_cast at hceiling
    linarith
  · refine ofDecimal?_isSome hpos (shortest_power_le h hm) ?_
    have hceiling : m.ceiling ≤ (2 * (2 ^ 53 - 1 : ℕ) + 1) * 2 ^ (970 - 1 : ℤ) :=
      ceiling_le (Nat.le_sub_one_of_lt hm.1) (by rw [maxExponent] at he; omega)
    have hunit : (0 : ℚ) < 2 ^ (970 : ℤ) := by positivity
    rw [zpow_sub_one₀ two_ne_zero] at hceiling
    rw [bound]
    generalize (2 : ℚ) ^ (970 : ℤ) = unit at *
    push_cast at hceiling
    linarith
  · rw [shortest_largest hk]
    exact ofDecimal?_largest_isSome k hk

end Ripple.Magnitude
