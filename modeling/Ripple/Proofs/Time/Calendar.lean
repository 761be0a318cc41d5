import Ripple.Time.Calendar
import Mathlib.Order.Monotone.Basic
import Mathlib.Tactic.IntervalCases
import Mathlib.Tactic.Linarith

/-!
# Days and dates

The date of a day is one that there is (`Date.exists?_ofDays`), and leads back to the day
(`Date.toDays_ofDays`). Later years have later days (`Date.toDays_lt_of_year_lt`).

The year of a day is computed by a quotient that is exact on the first and on the last day
of every year of an era. As it never falls from one day to the next, it is exact on all days
(`Date.yearOf_eq`).
-/

namespace Ripple.Date

/-- The days of an era before a year of it. -/
def yearStart (year : ℕ) : ℕ := 365 * year + year / 4 - year / 100 + year / 400

/-- The year in which a day of an era lies. -/
def yearOf (day : ℕ) : ℕ := (day - day / 1460 + day / 36524 - day / 146096) / 365

theorem yearOf_mono : Monotone yearOf := by
  refine monotone_nat_of_le_succ fun day => Nat.div_le_div_right ?_
  -- A day that ends an era ends a century as well, which makes up for it.
  have hera (n : ℕ) : n / 146096 = n / 36524 / 4 := (Nat.div_div_eq_div_mul n 36524 4).symm
  have hcentury : day / 36524 ≤ (day + 1) / 36524 := Nat.div_le_div_right (Nat.le_succ day)
  have hleap : (day + 1) / 1460 ≤ day / 1460 + 1 := by omega
  have hle : day / 1460 ≤ day := Nat.div_le_self day 1460
  rw [hera, hera]
  generalize day / 36524 = c at *
  generalize (day + 1) / 36524 = c' at *
  generalize day / 1460 = q at *
  generalize (day + 1) / 1460 = q' at *
  omega

theorem yearOf_yearStart : ∀ year < 400,
    yearOf (yearStart year) = year ∧ yearOf (yearStart (year + 1) - 1) = year := by
  decide +kernel

/-- A day that lies before a year lies in some year before that. -/
theorem exists_year {day : ℕ} : ∀ {year : ℕ}, day < yearStart year →
    ∃ y < year, yearStart y ≤ day ∧ day < yearStart (y + 1)
  | 0, h => absurd h (Nat.not_lt_zero _)
  | year + 1, h => by
    by_cases hlt : day < yearStart year
    · obtain ⟨y, hy, hday⟩ := exists_year hlt
      exact ⟨y, Nat.lt_succ_of_lt hy, hday⟩
    · exact ⟨year, Nat.lt_succ_self _, Nat.not_lt.1 hlt, h⟩

/-- Each day of an era lies in the year that is computed. -/
theorem yearOf_eq {day : ℕ} (h : day < 146097) :
    yearOf day < 400 ∧ yearStart (yearOf day) ≤ day ∧ day < yearStart (yearOf day + 1) := by
  obtain ⟨year, hyear, hstart, hend⟩ := exists_year (show day < yearStart 400 from h)
  obtain ⟨hfirst, hlast⟩ := yearOf_yearStart year hyear
  -- The first and the last day of the year are computed right, and the days between them
  -- have no other place to go.
  have heq : yearOf day = year := le_antisymm
    (hlast ▸ yearOf_mono (by omega)) (hfirst ▸ yearOf_mono hstart)
  rw [heq]
  exact ⟨hyear, hstart, hend⟩

/-- A year with 366 days ends in the February of a leap year. -/
theorem isLeapYear_of_yearStart {year : ℕ} (h : yearStart year + 365 < yearStart (year + 1))
    (hyear : year < 400) (era : ℤ) : isLeapYear (year + era * 400 + 1) = true := by
  simp only [yearStart] at h
  simp only [isLeapYear, Bool.and_eq_true, beq_iff_eq, Bool.or_eq_true, bne_iff_ne]
  omega

/-- The date of a day of a year that begins in March. -/
def ofYearDay (year : ℤ) (day : ℕ) : Date :=
  let month := (5 * day + 2) / 153
  if month < 10 then ⟨year, month + 3, day - (153 * month + 2) / 5 + 1⟩
  else ⟨year + 1, month - 9, day - (153 * month + 2) / 5 + 1⟩

/-- The month and the day of the month are natural numbers. -/
theorem ofYearDay_eq (year : ℤ) (day : ℕ) : ofYearDay year day =
    let month := (5 * (day : ℤ) + 2) / 153
    let dayOfMonth := day - (153 * month + 2) / 5 + 1
    if month < 10 then ⟨year, (month + 3).toNat, dayOfMonth.toNat⟩
    else ⟨year + 1, (month - 9).toNat, dayOfMonth.toNat⟩ := by
  have hmonth : (5 * (day : ℤ) + 2) / 153 = ((5 * day + 2) / 153 : ℕ) := by omega
  simp only [ofYearDay, hmonth]
  generalize hm : (5 * day + 2) / 153 = month
  by_cases hlt : month < 10
  · rw [if_pos hlt, if_pos (by omega), mk.injEq]
    omega
  · rw [if_neg hlt, if_neg (by omega), mk.injEq]
    omega

/-- A day lies in a year of an era. -/
theorem exists_yearDay (days : ℤ) : ∃ (era : ℤ) (year day : ℕ), year < 400 ∧ day < 366 ∧
    (day = 365 → isLeapYear (year + era * 400 + 1)) ∧
    days + epochOffset = era * daysPerEra + yearStart year + day ∧
    ofDays days = ofYearDay (year + era * 400) day := by
  have hpos : 0 ≤ (days + epochOffset) % daysPerEra := Int.emod_nonneg _ (by decide)
  have hlt : (days + epochOffset) % daysPerEra < 146097 := Int.emod_lt_of_pos _ (by decide)
  have hsplit := Int.mul_ediv_add_emod (days + epochOffset) daysPerEra
  obtain ⟨dayOfEra, hday⟩ := Int.eq_ofNat_of_zero_le hpos
  obtain ⟨hyear, hstart, hend⟩ := yearOf_eq (show dayOfEra < 146097 by omega)
  have hlength : yearStart (yearOf dayOfEra + 1) ≤ yearStart (yearOf dayOfEra) + 366 := by
    simp only [yearStart]
    omega
  refine ⟨(days + epochOffset) / daysPerEra, yearOf dayOfEra,
    dayOfEra - yearStart (yearOf dayOfEra), hyear, by omega,
    fun hlast => isLeapYear_of_yearStart (by omega) hyear _, ?_, ?_⟩
  · rw [hday, mul_comm] at hsplit
    push_cast [hstart]
    linarith
  · -- The integers of the computation are the natural numbers of the lemmas above.
    have hyearOf : ((dayOfEra : ℤ) - dayOfEra / 1460 + dayOfEra / 36524 - dayOfEra / 146096) / 365 =
        yearOf dayOfEra := by
      rw [yearOf]
      omega
    have hyearDay : (dayOfEra : ℤ) - (365 * yearOf dayOfEra + yearOf dayOfEra / 4 -
        yearOf dayOfEra / 100) = (dayOfEra - yearStart (yearOf dayOfEra) : ℕ) := by
      rw [yearStart] at hstart ⊢
      omega
    simp only [ofDays, hday, hyearOf, hyearDay]
    rw [ofYearDay_eq]

/-- The days to a date of a year that begins in March. -/
theorem toDays_ofYearDay {era : ℤ} {year day : ℕ} (hyear : year < 400) (hday : day < 366) :
    (ofYearDay (year + era * 400) day).toDays =
      era * daysPerEra + yearStart year + day - epochOffset := by
  have hstart : (year : ℤ) * 365 + year / 4 - year / 100 = yearStart year := by
    rw [yearStart]
    omega
  have hera : ((year : ℤ) + era * 400) / 400 = era := by omega
  have hrest : ((year : ℤ) + era * 400) % 400 = year := by omega
  rw [ofYearDay]
  generalize hm : (5 * day + 2) / 153 = month
  by_cases hlt : month < 10
  · have hnot : ¬month + 3 ≤ 2 := by omega
    simp only [hlt, if_true, toDays, hnot, if_false, hera, hrest, hstart]
    push_cast
    omega
  · have hle : month - 9 ≤ 2 := by omega
    simp only [hlt, if_false, toDays, hle, if_true, add_sub_cancel_right, hera, hrest, hstart]
    omega

/-- The date of a day leads back to it. -/
theorem toDays_ofDays (days : ℤ) : (ofDays days).toDays = days := by
  obtain ⟨era, year, day, hyear, hday, -, hdays, heq⟩ := exists_yearDay days
  rw [heq, toDays_ofYearDay hyear hday]
  omega

/-- The date of a day is one that there is. -/
theorem exists?_ofDays (days : ℤ) : (ofDays days).exists? = true := by
  obtain ⟨era, year, day, -, hday, hleap, -, heq⟩ := exists_yearDay days
  rw [heq, ofYearDay]
  generalize hm : (5 * day + 2) / 153 = month
  generalize (year : ℤ) + era * 400 = y at hleap ⊢
  have hle : month ≤ 11 := by omega
  rcases Nat.lt_or_eq_of_le hle with hlt | rfl
  · interval_cases month <;> simp [exists?, monthLength] <;> omega
  · -- The last month is February, whose last day there may be or not.
    by_cases hlast : day = 365
    · simp [exists?, monthLength, hleap hlast, hlast]
    · have hshort : 28 ≤ monthLength (y + 1) 2 := by
        rw [monthLength]
        split
        · split <;> omega
        · contradiction
      simp [exists?]
      omega

/-- No month has more than 31 days. -/
theorem monthLength_le (year : ℤ) (month : ℕ) : monthLength year month ≤ 31 := by
  rw [monthLength]
  split
  · split <;> decide
  · split <;> decide

/-- The days of a year lie before those of a later one. -/
theorem toDays_lt_of_year_lt {d d' : Date} (h : d.exists?) (h' : d'.exists?)
    (hlt : d.year < d'.year) : d.toDays < d'.toDays := by
  simp only [exists?, Bool.and_eq_true, decide_eq_true_eq] at h h'
  obtain ⟨⟨⟨-, hmonth⟩, -⟩, hday⟩ := h
  obtain ⟨⟨⟨hmonth', -⟩, hday'⟩, -⟩ := h'
  have hle := hday.trans (monthLength_le _ _)
  clear hday
  simp only [toDays, daysPerEra]
  split <;> split <;> omega

end Ripple.Date
