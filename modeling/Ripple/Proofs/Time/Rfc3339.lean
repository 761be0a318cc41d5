import Ripple.Time.Rfc3339
import Ripple.Proofs.Except
import Ripple.Proofs.Number.Numeral
import Ripple.Proofs.Time.Calendar

/-!
# Reading timestamps back

An instant of the years 0 to 9999 that is written to a table is read from there as it was,
to the nanosecond, leap seconds included (`Instant.readStrict_columnText`).
-/

namespace Ripple.Instant

/-! ## Numbers with leading zeros -/

theorem toList_padded (width n : ℕ) : (padded width n).toList =
    List.replicate (width - (Nat.toDigits 10 n).length) '0' ++ Nat.toDigits 10 n := by
  have hlength : n.repr.length = (Nat.toDigits 10 n).length := by
    rw [← Nat.toList_repr, String.length_toList]
  simp [padded, hlength]

theorem isNumeral_padded (width n : ℕ) : IsNumeral (padded width n).toList n := by
  rw [toList_padded]
  exact (isNumeral_toDigits n).replicate_append _

theorem length_padded {width n : ℕ} (hwidth : 0 < width) (h : n < 10 ^ width) :
    (padded width n).toList.length = width := by
  have := (Nat.length_toDigits_le_iff (show 1 < 10 by decide) hwidth).2 h
  rw [toList_padded, List.length_append, List.length_replicate]
  omega

theorem twoDigits_cons {a b : Char} (ha : a.isDigit) (hb : b.isDigit) (rest : List Char) :
    twoDigits (a :: b :: rest) = .ok ((a.toNat - 48) * 10 + (b.toNat - 48), rest) := by
  simp [twoDigits, ha, hb]

/-- Two digits are read as their number. -/
theorem twoDigits_padded {n : ℕ} (h : n < 100) (rest : List Char) :
    twoDigits ((padded 2 n).toList ++ rest) = .ok (n, rest) := by
  obtain ⟨a, b, hab⟩ := List.length_eq_two.1 (length_padded (show 0 < 2 by decide) h)
  obtain ⟨hdigits, hvalue⟩ := isNumeral_padded 2 n
  rw [hab] at hdigits hvalue ⊢
  have hn : (a.toNat - 48) * 10 + (b.toNat - 48) = n := by
    simp only [Nat.ofDigitChars_cons, Nat.ofDigitChars_nil, Char.reduceToNat] at hvalue
    omega
  rw [List.cons_append, List.cons_append, List.nil_append, twoDigits_cons, hn] <;>
    exact hdigits _ (by simp)

/-- Four digits are read as a century and a year of it. -/
theorem twoDigits_padded_four {n : ℕ} (h : n < 10000) (rest : List Char) :
    ∃ century year more, twoDigits ((padded 4 n).toList ++ rest) = .ok (century, more) ∧
      twoDigits more = .ok (year, rest) ∧ century * 100 + year = n := by
  obtain ⟨a, b, c, d, habcd⟩ := List.length_eq_four.1 (length_padded (show 0 < 4 by decide) h)
  obtain ⟨hdigits, hvalue⟩ := isNumeral_padded 4 n
  rw [habcd] at hdigits hvalue ⊢
  refine ⟨_, _, c :: d :: rest, twoDigits_cons (hdigits _ (by simp)) (hdigits _ (by simp)) _,
    twoDigits_cons (hdigits _ (by simp)) (hdigits _ (by simp)) _, ?_⟩
  simp only [Nat.ofDigitChars_cons, Nat.ofDigitChars_nil, Char.reduceToNat] at hvalue
  omega

/-! ## Fractions -/

/-- At most so many digits are read to their end. If there can be more, none may follow. -/
theorem moreDigits_append {cs rest : List Char} (hdigits : ∀ c ∈ cs, c.isDigit) {number width : ℕ}
    (hrest : cs.length < width → ∀ c ∈ rest.head?, ¬c.isDigit) (hwidth : cs.length ≤ width)
    (hmax : 10 ^ cs.length * (number + 1) ≤ maxNumber) :
    moreDigits number width (cs ++ rest) = .ok (Nat.ofDigitChars 10 cs number, rest) := by
  induction cs generalizing number width with
  | nil =>
    cases rest with
    | nil => cases width <;> rfl
    | cons c rest =>
      cases width with
      | zero => rfl
      | succ width => simp [moreDigits, hrest (Nat.succ_pos width) c rfl]
  | cons c cs ih =>
    obtain ⟨width, rfl⟩ := Nat.exists_eq_succ_of_ne_zero (show width ≠ 0 by
      rw [List.length_cons] at hwidth; omega)
    rw [List.length_cons] at hrest hwidth hmax
    -- The digits that are left bound the number that they are added to.
    have hdigit := digit_le (hdigits c List.mem_cons_self)
    have hnext : 10 ^ cs.length * (number * 10 + (c.toNat - 48) + 1) ≤ maxNumber := by
      refine le_trans ?_ hmax
      rw [pow_succ, mul_assoc]
      exact Nat.mul_le_mul_left _ (by omega)
    have hle : number * 10 + (c.toNat - 48) ≤ maxNumber :=
      (Nat.le_succ _).trans ((Nat.le_mul_of_pos_left _ (by positivity)).trans hnext)
    rw [List.cons_append, moreDigits, if_pos (hdigits c List.mem_cons_self),
      if_neg (Nat.not_lt.2 hle), ih (fun d hd => hdigits d (List.mem_cons_of_mem _ hd))
      (fun hlt => hrest (Nat.succ_lt_succ hlt)) (by omega) hnext, ofDigitChars_ten_cons]

/-- A numeral is read to its end. If it can have more digits, none may follow. -/
theorem digits_append {cs rest : List Char} {n width : ℕ} (h : IsNumeral cs n) (hne : cs ≠ [])
    (hrest : cs.length < width → ∀ c ∈ rest.head?, ¬c.isDigit) (hwidth : cs.length ≤ width)
    (hmax : 10 ^ cs.length ≤ maxNumber) : digits width (cs ++ rest) = .ok (n, rest) := by
  obtain ⟨c, more, rfl⟩ := List.exists_cons_of_ne_nil hne
  rw [List.cons_append, digits, if_pos (h.digits c List.mem_cons_self), ← List.cons_append,
    moreDigits_append h.digits hrest hwidth (by rwa [zero_add, mul_one]), h.value]

/-- A fraction of at most nine digits is read in nanoseconds. -/
theorem fraction_append {cs rest : List Char} {n : ℕ} (h : IsNumeral cs n) (hne : cs ≠ [])
    (hlength : cs.length ≤ 9) (hrest : ∀ c ∈ rest.head?, ¬c.isDigit) :
    fraction (cs ++ rest) = .ok (n * 10 ^ (9 - cs.length), rest) := by
  have hmax : 10 ^ cs.length ≤ maxNumber :=
    (Nat.pow_le_pow_right (by decide) hlength).trans (by decide)
  have hdrop : rest.dropWhile Char.isDigit = rest := by
    cases rest with
    | nil => rfl
    | cons c rest => rw [List.dropWhile_cons_of_neg (hrest c rfl)]
  rw [fraction, digits_append h hne (fun _ => hrest) hlength hmax, ok_bind]
  dsimp only
  rw [List.length_append, Nat.add_sub_cancel_right, hdrop]
  rfl

/-- The fraction of a second is read back. -/
theorem fraction?_fractionText {nanos : ℕ} (h : nanos < nanosPerSecond) {rest : List Char}
    (hpoint : '.' ∉ rest.head?) (hrest : ∀ c ∈ rest.head?, ¬c.isDigit) :
    fraction? ((fractionText nanos).toList ++ rest) = .ok (nanos, rest) := by
  -- The three widths of a fraction differ in the unit that its digits count.
  have hread {width n : ℕ} (hwidth : 0 < width) (hle : width ≤ 9) (hn : n < 10 ^ width)
      (hnanos : n * 10 ^ (9 - width) = nanos) :
      fraction? (("." ++ padded width n).toList ++ rest) = .ok (nanos, rest) := by
    have hlength := length_padded hwidth hn
    have hne : (padded width n).toList ≠ [] := by
      rw [← List.length_pos_iff, hlength]
      exact hwidth
    rw [String.toList_append]
    change fraction ((padded width n).toList ++ rest) = _
    rw [fraction_append (isNumeral_padded width n) hne (hlength.trans_le hle) hrest, hlength,
      hnanos]
  rw [nanosPerSecond] at h
  rw [fractionText]
  split
  · rename_i hzero
    rw [beq_iff_eq] at hzero
    subst hzero
    cases rest with
    | nil => rfl
    | cons c rest =>
      have : c ≠ '.' := fun he => hpoint (he ▸ rfl)
      simp [fraction?, this]
  · split
    · rename_i hmilli
      rw [beq_iff_eq] at hmilli
      exact hread (by decide) (by decide) (by omega) (by omega)
    · split
      · rename_i hmicro
        rw [beq_iff_eq] at hmicro
        exact hread (by decide) (by decide) (by omega) (by omega)
      · exact hread (by decide) (by decide) (by omega) (by omega)

/-! ## Timestamps -/

theorem length_le_byteCount (cs : List Char) : cs.length ≤ Text.byteCount cs := by
  induction cs with
  | nil => exact le_rfl
  | cons c cs ih =>
    have := c.utf8Size_pos
    rw [List.length_cons, Text.byteCount]
    omega

/-- The fields of a timestamp, as they are written with universal time as `+00:00`. -/
def fieldText (year month day hour minute second nanos : ℕ) : List Char :=
  (padded 4 year).toList ++ '-' :: ((padded 2 month).toList ++ '-' :: ((padded 2 day).toList ++
    'T' :: ((padded 2 hour).toList ++ ':' :: ((padded 2 minute).toList ++ ':' ::
      ((padded 2 second).toList ++ ((fractionText nanos).toList ++ "+00:00".toList))))))

/-- Fields that are in their ranges are read one by one. -/
theorem readStrict_fieldText {text : String} {year month day hour minute second nanos : ℕ}
    (htext : text.toList = fieldText year month day hour minute second nanos)
    (hyear : year < 10000) (hdate : (Date.mk year month day).exists?)
    (htime : isTime hour minute second) (hnanos : nanos < nanosPerSecond) :
    readStrict text = ofFields ⟨year, month, day⟩ hour minute second nanos 0 := by
  have hmonth : month < 100 ∧ day < 100 := by
    simp only [Date.exists?, Date.monthLength, Bool.and_eq_true, decide_eq_true_eq] at hdate
    grind
  have hhour : hour < 100 ∧ minute < 100 ∧ second < 100 := by
    simp only [isTime, Bool.and_eq_true, decide_eq_true_eq] at htime
    omega
  -- Each field has its full width, so that the text is not too short.
  have hbytes : ¬Text.byteCount (fieldText year month day hour minute second nanos) < 19 := by
    have hle := length_le_byteCount (fieldText year month day hour minute second nanos)
    have h4 := length_padded (show 0 < 4 by decide) hyear
    have h2 {n : ℕ} (hn : n < 100) := length_padded (show 0 < 2 by decide) hn
    simp only [fieldText, List.length_append, List.length_cons, h4, h2 hmonth.1, h2 hmonth.2,
      h2 hhour.1, h2 hhour.2.1, h2 hhour.2.2] at hle
    simp only [fieldText]
    omega
  obtain ⟨century, yearOfCentury, more, hcentury, hmore, rfl⟩ := twoDigits_padded_four hyear
    ('-' :: ((padded 2 month).toList ++ '-' :: ((padded 2 day).toList ++
      'T' :: ((padded 2 hour).toList ++ ':' :: ((padded 2 minute).toList ++ ':' ::
        ((padded 2 second).toList ++ ((fractionText nanos).toList ++ "+00:00".toList)))))))
  have hfraction : fraction? ((fractionText nanos).toList ++ "+00:00".toList) =
      .ok (nanos, "+00:00".toList) :=
    fraction?_fractionText hnanos (by rintro ⟨⟩) (by rintro c ⟨⟩; decide)
  have hoffset : offset (mark ':') "+00:00".toList = .ok (0, []) := by decide
  push_cast at hdate ⊢
  rw [readStrict, htext, if_neg hbytes, fieldText]
  simp only [pure_bind, hcentury, hmore, ok_bind, mark, if_true, twoDigits_padded hmonth.1,
    twoDigits_padded hmonth.2, twoDigits_padded hhour.1, twoDigits_padded hhour.2.1,
    twoDigits_padded hhour.2.2, hfraction, hoffset, htime, hdate, Bool.not_true,
    Bool.false_eq_true, if_false, true_or, or_true, List.isEmpty_nil]

/-- An instant of a year with four digits is written field by field. -/
theorem toList_columnText {t : Instant} (h : 0 ≤ t.date.year ∧ t.date.year ≤ 9999) :
    t.columnText.toList = fieldText t.date.year.toNat t.date.month t.date.day
      (t.secondOfDay / 3600) (t.secondOfDay / 60 % 60)
      (t.secondOfDay % 60 + t.nanos / nanosPerSecond) (t.nanos % nanosPerSecond) := by
  simp [columnText, text, yearText, h, fieldText]

theorem ofParts?_seconds (t : Instant) : ofParts? t.seconds t.nanos = some t := by
  rw [ofParts?, dif_pos t.holds]

/-- The fields of an instant lead back to it. A leap second is what stands as second 60. -/
theorem ofFields_date (t : Instant) :
    ofFields t.date (t.secondOfDay / 3600) (t.secondOfDay / 60 % 60)
      (t.secondOfDay % 60 + t.nanos / nanosPerSecond) (t.nanos % nanosPerSecond) 0 = .ok t := by
  obtain ⟨-, -, hnanos, hleap⟩ := t.holds
  have hsecond : (t.secondOfDay : ℤ) = t.seconds % 86400 := by
    rw [secondOfDay]
    omega
  have hdays : t.date.toDays = t.seconds / 86400 := Date.toDays_ofDays _
  -- Second 60 stands for second 59 and more than a second's nanoseconds.
  have hparts : ∀ second extra : ℕ, second = t.secondOfDay % 60 →
      extra + t.nanos % nanosPerSecond = t.nanos →
      ofParts? (t.date.toDays * 86400 + ((t.secondOfDay / 3600 : ℕ) * 3600 +
        (t.secondOfDay / 60 % 60 : ℕ) * 60 + (second : ℤ)) - 0) (extra + t.nanos % nanosPerSecond) =
      some t := by
    intro second extra hs he
    have hseconds : t.date.toDays * 86400 + ((t.secondOfDay / 3600 : ℕ) * 3600 +
        (t.secondOfDay / 60 % 60 : ℕ) * 60 + (second : ℤ)) - 0 = t.seconds := by
      rw [hdays]
      omega
    rw [hseconds, he, ofParts?_seconds]
  rw [ofFields, if_neg (by decide)]
  rw [nanosPerSecond] at *
  by_cases hlt : t.nanos < 1000000000
  · have hnot : (t.secondOfDay % 60 + t.nanos / 1000000000 == 60) = false := by
      rw [beq_eq_false_iff_ne]
      omega
    simp only [hnot, Bool.false_eq_true, if_false]
    rw [hparts _ _ (by omega) (by omega)]
  · have heq : (t.secondOfDay % 60 + t.nanos / 1000000000 == 60) = true := by
      rw [beq_iff_eq]
      omega
    simp only [heq, if_true]
    rw [hparts 59 _ (by omega) (by omega)]

/-- An instant that is written to a table is read from there as it was. -/
theorem readStrict_columnText {t : Instant} (h : 0 ≤ t.date.year ∧ t.date.year ≤ 9999) :
    readStrict t.columnText = .ok t := by
  have hyear : (t.date.year.toNat : ℤ) = t.date.year := by omega
  have hsecond : t.secondOfDay < 86400 := by
    rw [secondOfDay]
    omega
  have htime : isTime (t.secondOfDay / 3600) (t.secondOfDay / 60 % 60)
      (t.secondOfDay % 60 + t.nanos / nanosPerSecond) := by
    have hnanos := t.holds.2.2.1
    rw [nanosPerSecond] at hnanos ⊢
    simp only [isTime, Bool.and_eq_true, decide_eq_true_eq]
    omega
  rw [readStrict_fieldText (toList_columnText h) (by omega)
    (by rw [hyear]; exact Date.exists?_ofDays _) htime (Nat.mod_lt _ (by decide)), hyear]
  exact ofFields_date t

end Ripple.Instant
