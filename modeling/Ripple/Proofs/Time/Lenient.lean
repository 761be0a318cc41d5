import Ripple.Proofs.Time.Rfc3339

/-!
# Reading timestamps of records back

The reader of the wider form takes what is written to a record, of any year that there is, leap
seconds included (`Instant.readLenient_recordText`). A year of four digits stands without a sign
and any other one with a sign, which the reader tells apart by the first character.
-/

namespace Ripple.Instant

variable {cs rest : List Char} {n : ℕ}

/-! ## Numbers and marks -/

theorem isBlank_of_isDigit {c : Char} (h : c.isDigit) : Text.isBlank c = false := by
  obtain ⟨hlow, hhigh⟩ := Char.isDigit_iff_toNat.1 h
  simp only [Text.isBlank, Bool.or_eq_false_iff, Bool.and_eq_false_iff, decide_eq_false_iff_not,
    beq_eq_false_iff_ne]
  change 48 ≤ c.toNat at hlow
  change c.toNat ≤ 57 at hhigh
  omega

theorem trimLeft_cons {c : Char} (h : Text.isBlank c = false) (rest : List Char) :
    Text.trimLeft (c :: rest) = c :: rest := by
  rw [Text.trimLeft, List.dropWhile_cons_of_neg (by simp [h])]

/-- No blanks stand before a numeral. -/
theorem trimLeft_append (h : IsNumeral cs n) (hne : cs ≠ []) (rest : List Char) :
    Text.trimLeft (cs ++ rest) = cs ++ rest := by
  obtain ⟨c, more, rfl⟩ := List.exists_cons_of_ne_nil hne
  exact trimLeft_cons (isBlank_of_isDigit (h.digits c List.mem_cons_self)) _

theorem padded_ne_nil (width n : ℕ) : (padded width n).toList ≠ [] := by
  rw [toList_padded]
  exact List.append_ne_nil_of_right_ne_nil _ Nat.toDigits_ne_nil

/-- A number of two digits is read if it lies in its range. -/
theorem looseNumber_padded {low high : ℕ} (hlow : low ≤ n) (hhigh : n ≤ high) (h : n < 100)
    (rest : List Char) : looseNumber low high ((padded 2 n).toList ++ rest) = .ok (n, rest) := by
  have hlength : (padded 2 n).toList.length = 2 := length_padded (by decide) h
  have hdigits : digits 2 ((padded 2 n).toList ++ rest) = .ok (n, rest) :=
    digits_append (isNumeral_padded 2 n) (padded_ne_nil 2 n) (fun hlt => by omega) (by omega)
      (by rw [hlength]; decide)
  rw [looseNumber, trimLeft_append (isNumeral_padded 2 n) (padded_ne_nil 2 n), hdigits, ok_bind]
  dsimp only
  rw [if_neg (by omega)]
  rfl

/-- A mark is read if it is no blank. -/
theorem looseMark_cons {m : Char} (h : Text.isBlank m = false) (rest : List Char) :
    looseMark m (m :: rest) = .ok rest := by
  rw [looseMark, trimLeft_cons h, mark, if_pos rfl]

/-! ## Years -/

/-- After a sign there can be any number of digits. -/
theorem looseYear_sign (negative : Bool) (hdigits : digits cs.length cs = .ok (n, rest))
    (hn : n ≤ 262143) : looseYear ((if negative then '-' else '+') :: cs) =
      .ok (if negative then -(n : ℤ) else n, rest) := by
  have hrange : ¬(-(n : ℤ) < -2147483648 ∨ 2147483647 < -(n : ℤ)) ∧
      ¬((n : ℤ) < -2147483648 ∨ 2147483647 < (n : ℤ)) := by omega
  cases negative with
  | true =>
    rw [if_pos rfl, if_pos rfl, looseYear, trimLeft_cons (by decide)]
    simp only [if_true, hdigits, ok_bind, pure_bind, hrange.1, if_false]
    rfl
  | false =>
    have hminus : '+' ≠ '-' := by decide
    rw [if_neg (by decide), if_neg (by decide), looseYear, trimLeft_cons (by decide)]
    simp only [hminus, if_true, hdigits, ok_bind, pure_bind, hrange.2, if_false]
    rfl

/-- Without a sign there are at most four digits. -/
theorem looseYear_unsigned (h : IsNumeral cs n) (hlength : cs.length = 4) (hn : n ≤ 9999)
    (rest : List Char) : looseYear (cs ++ rest) = .ok (n, rest) := by
  have hne : cs ≠ [] := List.ne_nil_of_length_eq_add_one hlength
  have hrange : ¬((n : ℤ) < -2147483648 ∨ 2147483647 < (n : ℤ)) := by omega
  have hdigits : digits 4 (cs ++ rest) = .ok (n, rest) :=
    digits_append h hne (by omega) hlength.le (by rw [hlength]; decide)
  rw [looseYear, trimLeft_append h hne]
  -- A digit is neither of the two signs.
  obtain ⟨c, more, rfl⟩ := List.exists_cons_of_ne_nil hne
  have hc : c.isDigit := h.digits c List.mem_cons_self
  have hminus : c ≠ '-' := fun he => absurd (he ▸ hc) (by decide)
  have hplus : c ≠ '+' := fun he => absurd (he ▸ hc) (by decide)
  rw [List.cons_append] at hdigits ⊢
  simp only [hminus, hplus, if_false, hdigits, ok_bind, pure_bind, hrange]
  rfl

/-- A year is read back, with its sign or without one. -/
theorem looseYear_yearText {year : ℤ} (h : -262143 ≤ year ∧ year ≤ 262142) (rest : List Char) :
    looseYear ((yearText year).toList ++ '-' :: rest) = .ok (year, '-' :: rest) := by
  have hnumeral := isNumeral_padded 4
  rw [yearText]
  split
  case isTrue hfour =>
    have hyear : (year.toNat : ℤ) = year := by omega
    rw [looseYear_unsigned (hnumeral _) (length_padded (by decide) (by omega)) (by omega), hyear]
  case isFalse =>
    have hlength : (padded 4 year.natAbs).toList.length ≤ 6 := by
      have := (Nat.length_toDigits_le_iff (show 1 < 10 by decide) (show 0 < 6 by decide)).2
        (show year.natAbs < 10 ^ 6 by omega)
      rw [toList_padded, List.length_append, List.length_replicate]
      omega
    have hdigits : digits ((padded 4 year.natAbs).toList ++ '-' :: rest).length
        ((padded 4 year.natAbs).toList ++ '-' :: rest) = .ok (year.natAbs, '-' :: rest) := by
      refine digits_append (hnumeral _) (padded_ne_nil _ _) (fun _ => ?_) ?_ ?_
      · rintro c ⟨⟩
        decide
      · rw [List.length_append]
        exact Nat.le_add_right _ _
      · exact (Nat.pow_le_pow_right (by decide) hlength).trans (by decide)
    have hsign : ((if year < 0 then "-" else "+") ++ padded 4 year.natAbs).toList =
        (if decide (year < 0) then '-' else '+') :: (padded 4 year.natAbs).toList := by
      by_cases hneg : year < 0 <;> simp [hneg]
    have hvalue : (if decide (year < 0) then -(year.natAbs : ℤ) else year.natAbs) = year := by
      by_cases hneg : year < 0 <;>
        simp only [hneg, decide_true, decide_false, if_true, Bool.false_eq_true, if_false] <;> omega
    rw [hsign, List.cons_append, looseYear_sign _ hdigits (by omega), hvalue]

/-- The years of instants are those that there are. -/
theorem isYear_date (t : Instant) : isYear t.date.year := by
  obtain ⟨hfirst, hlast, -⟩ := t.holds
  have hdays : t.date.toDays = t.seconds / 86400 := Date.toDays_ofDays _
  have hexists : t.date.exists? := Date.exists?_ofDays _
  rw [firstSecond] at hfirst
  rw [lastSecond] at hlast
  -- A day of another year would lie before the first day or after the last one.
  have hlow (h : t.date.year < -262143) : t.date.toDays < (Date.mk (-262143) 1 1).toDays :=
    Date.toDays_lt_of_year_lt hexists (by decide) h
  have hhigh (h : 262142 < t.date.year) : (Date.mk 262142 12 31).toDays < t.date.toDays :=
    Date.toDays_lt_of_year_lt (by decide) hexists h
  rw [hdays] at hlow hhigh
  simp only [isYear, Bool.and_eq_true, decide_eq_true_eq]
  omega

/-! ## Timestamps -/

/-- An instant is written field by field. -/
theorem toList_recordText (t : Instant) : t.recordText.toList =
    (yearText t.date.year).toList ++ '-' :: ((padded 2 t.date.month).toList ++ '-' ::
      ((padded 2 t.date.day).toList ++ 'T' :: ((padded 2 (t.secondOfDay / 3600)).toList ++ ':' ::
        ((padded 2 (t.secondOfDay / 60 % 60)).toList ++ ':' ::
          ((padded 2 (t.secondOfDay % 60 + t.nanos / nanosPerSecond)).toList ++
            ((fractionText (t.nanos % nanosPerSecond)).toList ++ ['Z'])))))) := by
  simp [recordText, text]

/-- An instant that is written to a record is read from there as it was. -/
theorem readLenient_recordText (t : Instant) : readLenient t.recordText = .ok t := by
  have hdate : t.date.exists? := Date.exists?_ofDays _
  have hyear := isYear_date t
  have hrange : -262143 ≤ t.date.year ∧ t.date.year ≤ 262142 := by
    simpa only [isYear, Bool.and_eq_true, decide_eq_true_eq] using hyear
  have hday : (1 ≤ t.date.month ∧ t.date.month ≤ 12) ∧ 1 ≤ t.date.day ∧ t.date.day ≤ 31 := by
    have hdate := hdate
    simp only [Date.exists?, Bool.and_eq_true, decide_eq_true_eq] at hdate
    have := hdate.2.trans (Date.monthLength_le _ _)
    omega
  have htime : t.secondOfDay / 3600 ≤ 23 ∧ t.secondOfDay / 60 % 60 ≤ 59 ∧
      t.secondOfDay % 60 + t.nanos / nanosPerSecond ≤ 60 := by
    have hsecond : t.secondOfDay < 86400 := by
      rw [secondOfDay]
      omega
    have hnanos := t.holds.2.2.1
    rw [nanosPerSecond] at hnanos ⊢
    omega
  have hfraction : fraction? ((fractionText (t.nanos % nanosPerSecond)).toList ++ ['Z']) =
      .ok (t.nanos % nanosPerSecond, ['Z']) :=
    fraction?_fractionText (Nat.mod_lt _ (by decide)) (by rintro ⟨⟩) (by rintro c ⟨⟩; decide)
  have hoffset : looseOffset (Text.trimLeft ['Z']) = .ok (0, []) := by decide
  have hmark {m : Char} (hm : Text.isBlank m = false) := looseMark_cons hm
  rw [readLenient, toList_recordText]
  simp only [looseYear_yearText hrange, ok_bind, hmark (show Text.isBlank '-' = false by decide),
    hmark (show Text.isBlank ':' = false by decide), looseNumber_padded hday.1.1 hday.1.2 (by omega),
    looseNumber_padded hday.2.1 hday.2.2 (by omega), true_or, or_true, if_true, pure_bind,
    looseNumber_padded (Nat.zero_le _) htime.1 (by omega),
    looseNumber_padded (Nat.zero_le _) htime.2.1 (by omega),
    looseNumber_padded (Nat.zero_le _) htime.2.2 (by omega), hfraction, hoffset]
  rw [if_neg (by decide), if_neg (by simp [hyear, hdate])]
  exact ofFields_date t

end Ripple.Instant
