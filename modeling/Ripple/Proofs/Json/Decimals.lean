import Ripple.Proofs.Json.Numbers
import Ripple.Proofs.Number.Shortest

/-!
# Reading doubles back

The text of a decimal is a number in each of its four layouts, with a fraction, with an
exponent, or with both (`Decimal.readsAs_text`). So the text of a finite double is read as a
double (`exists_valueAt_real`). It may be another one: digits and power of ten are rounded
one by one.
-/

namespace Ripple

/-- Whether a number is one of 64 bits. -/
def JsonNumber.Fits : JsonNumber → Prop
  | .int n => -9223372036854775808 ≤ n ∧ n < 18446744073709551616
  | .real x => x.magnitude.Finite

namespace Json

variable {whole fraction digits exponent rest : List Char} {n e : ℕ} {m : Magnitude}

/-! ## Parts of a number -/

theorem fractionPart_append (h : IsNumeral fraction n) (hne : fraction ≠ [])
    (hrest : ∀ c ∈ rest.head?, ¬c.isDigit) :
    fractionPart ('.' :: (fraction ++ rest)) = .ok (some fraction, rest) := by
  dsimp only [fractionPart]
  rw [if_pos rfl, h.takeWhile_append hrest, h.dropWhile_append hrest, if_neg (by simpa using hne)]

theorem exponentPart_append (down : Bool) (h : IsNumeral exponent n) (hne : exponent ≠ [])
    (hrest : ∀ c ∈ rest.head?, ¬c.isDigit) :
    exponentPart ('e' :: (if down then '-' else '+') :: (exponent ++ rest)) =
      .ok (some (down, exponent), rest) := by
  have hsign : exponentPart ('e' :: (if down then '-' else '+') :: (exponent ++ rest)) =
      if ((exponent ++ rest).takeWhile Char.isDigit).isEmpty then
        .error (.noDigit (exponent ++ rest))
      else .ok (some (down, (exponent ++ rest).takeWhile Char.isDigit),
        (exponent ++ rest).dropWhile Char.isDigit) := by
    cases down <;> rfl
  rw [hsign, h.takeWhile_append hrest, h.dropWhile_append hrest, if_neg (by simpa using hne)]

/-- Digits of an exponent that fit 31 bits are gathered to the last. -/
theorem gatherExponent_eq {cs : List Char} {number : ℕ}
    (h : Nat.ofDigitChars 10 cs number < 2147483648) :
    gatherExponent number cs = .ok (Nat.ofDigitChars 10 cs number) := by
  induction cs generalizing number with
  | nil => rfl
  | cons c cs ih =>
    rw [ofDigitChars_ten_cons, ← digitValue] at h ⊢
    rw [gatherExponent, if_pos ((le_ofDigitChars cs _).trans_lt h), ih h]

/-! ## Values -/

/-- The digits before the point and those after it are gathered one after the other. -/
theorem gather_append (h : IsNumeral (whole ++ fraction) n) (hn : n < UInt64.size) :
    ∃ w, gather 0 whole = (w, 0) ∧ gather w fraction = (n, 0) := by
  have hvalue := h.value
  rw [Nat.ofDigitChars_append] at hvalue
  have hle : Nat.ofDigitChars 10 whole 0 ≤ n := hvalue ▸ le_ofDigitChars fraction _
  refine ⟨_, gather_eq (hle.trans_lt hn), ?_⟩
  rw [gather_eq (hvalue.trans_lt hn), hvalue]

variable {down : Bool}

/-- A number with a fraction: the places of the fraction are its power of ten. -/
theorem numberValue_fraction (h : IsNumeral (whole ++ fraction) n) (hn : n < UInt64.size)
    (hm : Magnitude.ofDecimal? n (-fraction.length) = some m) (negative : Bool) (rest : List Char) :
    numberValue negative whole (some fraction) none rest = .ok (.real ⟨negative, m⟩) := by
  obtain ⟨w, hwhole, hfraction⟩ := gather_append h hn
  have hpower : ((0 : ℕ) - (fraction.length - (0 : ℕ)) : ℤ) = -fraction.length := by omega
  rw [numberValue, hwhole]
  dsimp only
  rw [hfraction, if_neg (by simp)]
  dsimp only
  rw [hpower, Double.ofDecimal?, hm]
  rfl

/-- The power of ten of digits after the point, as an exponent changes it. -/
def shift (down : Bool) (power : ℤ) (e : ℕ) : ℤ := if down then power - e else power + e

/-- A number with an exponent, and perhaps a fraction. -/
theorem numberValue_exponent (h : IsNumeral whole n) (hn : n < UInt64.size)
    (hexponent : IsNumeral exponent e) (he : e < 2147483648)
    (hm : Magnitude.ofDecimal? n (shift down 0 e) = some m) (negative : Bool) (rest : List Char) :
    numberValue negative whole none (some (down, exponent)) rest = .ok (.real ⟨negative, m⟩) := by
  have hvalue := hexponent.value
  rw [numberValue, gather_eq (h.value.trans_lt hn), h.value]
  dsimp only
  rw [if_neg (by simp), gatherExponent_eq (hvalue.trans_lt he), hvalue]
  dsimp only
  rw [Nat.cast_zero, ← shift, Double.ofDecimal?, hm]
  rfl

theorem numberValue_fraction_exponent (h : IsNumeral (whole ++ fraction) n) (hn : n < UInt64.size)
    (hexponent : IsNumeral exponent e) (he : e < 2147483648)
    (hm : Magnitude.ofDecimal? n (shift down (-fraction.length) e) = some m) (negative : Bool)
    (rest : List Char) : numberValue negative whole (some fraction) (some (down, exponent)) rest =
      .ok (.real ⟨negative, m⟩) := by
  obtain ⟨w, hwhole, hfraction⟩ := gather_append h hn
  have hvalue := hexponent.value
  have hpower : ((0 : ℕ) - (fraction.length - (0 : ℕ)) : ℤ) = -fraction.length := by omega
  rw [numberValue, hwhole]
  dsimp only
  rw [hfraction, if_neg (by simp), gatherExponent_eq (hvalue.trans_lt he), hvalue]
  dsimp only
  rw [hpower, ← shift, Double.ofDecimal?, hm]
  rfl

/-! ## Texts -/

/-- Whether some characters are the text of a magnitude: read with either sign before them, they
    are a double. -/
def ReadsAs (cs : List Char) (m : Magnitude) : Prop :=
  ∀ (negative : Bool) (rest : List Char), Follows rest →
    number negative (cs ++ rest) = .ok (.ok (.real ⟨negative, m⟩), rest)

/-- Digits around a point are the text of a magnitude. -/
theorem readsAs_fraction (h : IsNumeral (whole ++ fraction) n) (hn : n < UInt64.size)
    (hwhole : IsWhole whole) (hfraction : fraction ≠ []) :
    ∃ m, ReadsAs (whole ++ '.' :: fraction) m := by
  have hpower : (-fraction.length : ℤ) < 0 := by
    have := List.length_pos_of_ne_nil hfraction
    omega
  obtain ⟨m, hm⟩ : ∃ m, Magnitude.ofDecimal? n (-fraction.length) = some m :=
    ⟨_, if_pos hpower⟩
  refine ⟨m, fun negative rest hrest => ?_⟩
  rw [List.append_assoc, List.cons_append,
    number_eq_ok (wholePart_append h.left hwhole (by simp))
      (fractionPart_append h.right hfraction hrest.not_isDigit) hrest.exponentPart,
    numberValue_fraction h hn hm]

/-- The characters of an exponent. -/
def exponentChars (x : ℤ) : List Char :=
  'e' :: (if decide (x < 0) then '-' else '+') :: Nat.toDigits 10 x.natAbs

theorem exponentPart_exponentChars (x : ℤ) (hrest : ∀ c ∈ rest.head?, ¬c.isDigit) :
    exponentPart (exponentChars x ++ rest) =
      .ok (some (decide (x < 0), Nat.toDigits 10 x.natAbs), rest) :=
  exponentPart_append _ (isNumeral_toDigits _) Nat.toDigits_ne_nil hrest

theorem shift_natAbs (power x : ℤ) : shift (decide (x < 0)) power x.natAbs = power + x := by
  rw [shift]
  split
  · rename_i h
    have := of_decide_eq_true h
    omega
  · rename_i h
    have : ¬x < 0 := by simpa using h
    omega

variable {x : ℤ}

/-- Digits before an exponent are the text of a magnitude, if it is not too large. -/
theorem readsAs_exponent (h : IsNumeral whole n) (hn : n < UInt64.size) (hwhole : IsWhole whole)
    (hx : x.natAbs < 2147483648) (hm : Magnitude.ofDecimal? n x = some m) :
    ReadsAs (whole ++ exponentChars x) m := by
  intro negative rest hrest
  rw [List.append_assoc, number_eq_ok (wholePart_append h hwhole (by simp [exponentChars]))
    (by rfl) (exponentPart_exponentChars x hrest.not_isDigit)]
  rw [numberValue_exponent h hn (isNumeral_toDigits _) hx (by rw [shift_natAbs, zero_add, hm])]

theorem readsAs_fraction_exponent (h : IsNumeral (whole ++ fraction) n) (hn : n < UInt64.size)
    (hwhole : IsWhole whole) (hfraction : fraction ≠ []) (hx : x.natAbs < 2147483648)
    (hm : Magnitude.ofDecimal? n (-fraction.length + x) = some m) :
    ReadsAs (whole ++ '.' :: (fraction ++ exponentChars x)) m := by
  intro negative rest hrest
  rw [List.append_assoc, List.cons_append, List.append_assoc,
    number_eq_ok (wholePart_append h.left hwhole (by simp))
      (fractionPart_append h.right hfraction (by simp [exponentChars]))
      (exponentPart_exponentChars x hrest.not_isDigit)]
  rw [numberValue_fraction_exponent h hn (isNumeral_toDigits _) hx (by rw [shift_natAbs, hm])]

end Json

namespace Decimal

open Json

variable {d : Decimal}

theorem toList_toString (n : ℕ) : (toString n).toList = Nat.toDigits 10 n := by
  rw [Nat.toString_eq_repr, Nat.toList_repr]

/-- The digits before an exponent, with a point after the first unless it is the only one. -/
def mantissaChars : List Char → List Char
  | first :: second :: more => first :: '.' :: second :: more
  | digits => digits

section Layouts

variable {digits : List Char} {k : ℕ} {power x : ℤ} (hnumeral : IsNumeral digits n)
  (hne : digits ≠ []) (hhead : digits.head? ≠ some '0')

include hnumeral hne

/-- Digits after a point and zeros. -/
theorem readsAs_small (hn : n < UInt64.size) (k : ℕ) :
    ∃ m, ReadsAs (['0'] ++ '.' :: (List.replicate k '0' ++ digits)) m := by
  have hzeros : IsNumeral (['0'] ++ (List.replicate k '0' ++ digits)) n :=
    hnumeral.replicate_append (k + 1)
  exact readsAs_fraction hzeros hn ⟨by decide, fun _ => rfl⟩ (by simp [hne])

include hhead

/-- Digits and zeros before a point. -/
theorem readsAs_zeros (hlt : n < 10 ^ digits.length) (hk : digits.length + k ≤ 16) :
    ∃ m, ReadsAs (digits ++ List.replicate k '0' ++ '.' :: ['0']) m := by
  have hzeros : IsNumeral (digits ++ List.replicate k '0' ++ ['0']) (10 ^ (k + 1) * n) := by
    rw [List.append_assoc, ← List.replicate_succ']
    exact hnumeral.append_replicate (k + 1)
  have hn : 10 ^ (k + 1) * n < UInt64.size :=
    calc 10 ^ (k + 1) * n ≤ 10 ^ (k + 1) * 10 ^ digits.length := Nat.mul_le_mul_left _ hlt.le
      _ = 10 ^ (k + 1 + digits.length) := (Nat.pow_add ..).symm
      _ ≤ 10 ^ 17 := Nat.pow_le_pow_right (by decide) (by omega)
      _ < UInt64.size := by decide
  have hhead' : (digits ++ List.replicate k '0').head? ≠ some '0' := by
    rwa [List.head?_append_of_ne_nil _ hne]
  exact readsAs_fraction hzeros hn (.of_head (by simp [hne]) hhead') (by simp)

/-- Digits with a point between them. -/
theorem readsAs_point (hn : n < UInt64.size) (hk : 0 < k) (hlt : k < digits.length) :
    ∃ m, ReadsAs (digits.take k ++ '.' :: digits.drop k) m := by
  have hhead' : (digits.take k).head? ≠ some '0' := by
    rwa [List.head?_take, if_neg hk.ne']
  have htake : digits.take k ≠ [] := by
    simp [hk.ne', hne]
  have hdrop : digits.drop k ≠ [] := by
    simpa using hlt
  exact readsAs_fraction ((List.take_append_drop k digits).symm ▸ hnumeral) hn
    (.of_head htake hhead') hdrop

/-- Digits before an exponent, with or without a point. -/
theorem readsAs_scientific (hn : n < UInt64.size) (hx : x = digits.length + power - 1)
    (hsmall : x.natAbs < 2147483648) (hm : (Magnitude.ofDecimal? n power).isSome) :
    ∃ m, ReadsAs (mantissaChars digits ++ exponentChars x) m := by
  obtain ⟨m, hm⟩ := Option.isSome_iff_exists.1 hm
  refine ⟨m, ?_⟩
  obtain ⟨first, rest, rfl⟩ := List.exists_cons_of_ne_nil hne
  cases rest with
  | nil =>
    have hpower : x = power := by
      rw [hx, List.length_singleton]
      omega
    exact readsAs_exponent hnumeral hn (.of_head hne hhead) hsmall (hpower ▸ hm)
  | cons second more =>
    have hpower : -((second :: more).length : ℤ) + x = power := by
      rw [hx]
      simp only [List.length_cons]
      omega
    have hfirst : IsWhole [first] := .of_head (List.cons_ne_nil _ _) hhead
    exact readsAs_fraction_exponent (show IsNumeral ([first] ++ second :: more) n from hnumeral) hn
      hfirst (List.cons_ne_nil _ _) hsmall (hpower ▸ hm)

end Layouts

/-- A decimal of 64 bits of digits is read from its text, if it is not too large. -/
theorem readsAs_text (hpos : 0 < d.digits) (hdigits : d.digits < UInt64.size)
    (hlow : -400 ≤ d.power) (hhigh : d.power ≤ 308)
    (hm : (Magnitude.ofDecimal? d.digits d.power).isSome) : ∃ m, ReadsAs d.text.toList m := by
  have hnumeral := isNumeral_toDigits d.digits
  have hhead := head_toDigits_ne_zero hpos
  have hne : Nat.toDigits 10 d.digits ≠ [] := Nat.toDigits_ne_nil
  have hlt := lt_ten_pow_length_toDigits d.digits
  have hlength : (Nat.toDigits 10 d.digits).length ≤ 20 :=
    (Nat.length_toDigits_le_iff (by decide) (by decide)).2 (hdigits.trans (by decide))
  -- One case for each layout: with zeros before the point, with the point among the digits,
  -- with zeros after it, and with an exponent.
  rw [text]
  dsimp only
  rw [Magnitude.Interval.length_toString]
  split
  · rename_i h
    rw [String.toList_append, String.toList_append, String.toList_ofList, toList_toString]
    exact readsAs_zeros hnumeral hne hhead hlt (by omega)
  split
  · rename_i h
    obtain ⟨k, hk⟩ : ∃ k : ℕ, ((Nat.toDigits 10 d.digits).length + d.power : ℤ) = k :=
      Int.eq_ofNat_of_zero_le h.1.le
    rw [String.toList_append, String.toList_append, String.toList_ofList, String.toList_ofList,
      String.toList_ofList, toList_toString, List.append_assoc, hk, Int.toNat_natCast]
    exact readsAs_point hnumeral hne hhead hdigits (by omega) (by omega)
  split
  · rename_i h
    rw [String.toList_append, String.toList_append, String.toList_ofList, String.toList_ofList,
      toList_toString, List.append_assoc]
    exact readsAs_small hnumeral hne hdigits _
  · have hexponent (x : ℤ) : (if x < 0 then "e-" else "e+").toList ++ (toString x.natAbs).toList =
        exponentChars x := by
      rw [toList_toString]
      split <;> simp_all [exponentChars]
    have hread := readsAs_scientific hnumeral hne hhead hdigits rfl (by omega) hm
    have hstring := toList_toString d.digits
    obtain ⟨first, more, hchars⟩ := List.exists_cons_of_ne_nil hne
    rw [hchars] at hread hstring ⊢
    rw [String.toList_append, String.toList_append, List.append_assoc, hexponent, hstring]
    -- Whether there is a point depends on whether there is a second digit.
    cases more with
    | nil =>
      dsimp only
      rw [hstring]
      exact hread
    | cons second more =>
      dsimp only
      rw [String.toList_ofList]
      exact hread

end Decimal

namespace Json

variable {fuel depth : ℕ} {rest cs : List Char} {m : Magnitude} {x : Double}

theorem readsAs_zero : ∃ m, ReadsAs "0.0".toList m :=
  Decimal.readsAs_small (isNumeral_toDigits 0) (by decide) (by decide) 0

/-- The text of a finite magnitude is read as some magnitude. -/
theorem exists_readsAs (hm : m.Finite) :
    ∃ m', ReadsAs (if m.significand == 0 then "0.0" else m.shortest.text).toList m' := by
  split
  · exact readsAs_zero
  · rename_i hzero
    have hpos : 0 < m.significand := Nat.pos_of_ne_zero (by simpa using hzero)
    have hnear := Magnitude.near_shortest hpos
    exact Decimal.readsAs_text hnear.pos hnear.digits_lt (Magnitude.le_shortest_power hpos hm)
      (Magnitude.shortest_power_le hpos hm) (Magnitude.shortest_ofDecimal?_isSome hpos hm)

/-- What is read as a number begins with a digit. -/
theorem ReadsAs.exists_eq_cons (h : ReadsAs cs m) : ∃ c cs', cs = c :: cs' ∧ c.isDigit := by
  -- Without a digit there is no whole part, and reading fails there.
  have hread := h false [] .nil
  obtain ⟨⟨whole, rest⟩, hwhole, -⟩ := bind_eq_ok.1 hread
  rw [List.append_nil] at hwhole
  rw [wholePart] at hwhole
  cases cs with
  | nil => cases hwhole
  | cons c cs =>
    refine ⟨c, cs, rfl, ?_⟩
    by_contra hc
    rw [List.takeWhile_cons_of_neg hc] at hwhole
    cases hwhole

/-- A finite double is read as a double from its text. -/
theorem exists_valueAt_real (hx : x.magnitude.Finite) : ∃ x' : Double,
    ∀ (fuel depth : ℕ) (rest : List Char), Follows rest →
      valueAt (fuel + 1) depth (numberChars (.real x) ++ rest) =
        (.num (.ok (.real x')), some rest) := by
  obtain ⟨m, hm⟩ := exists_readsAs hx
  refine ⟨⟨x.negative, m⟩, fun fuel depth rest hrest => ?_⟩
  have hread := hm x.negative rest hrest
  rw [numberChars, Double.text, String.toList_append]
  -- The sign says whether a minus or the first digit leads to the number.
  obtain ⟨c, cs, hchars, hc⟩ := hm.exists_eq_cons
  rw [hchars] at hread ⊢
  cases hnegative : x.negative with
  | true =>
    rw [hnegative] at hread
    exact valueAt_minus hread
  | false =>
    rw [hnegative] at hread
    exact valueAt_digit hc hread

/-! ## All numbers -/

/-- The text of a number begins with a minus or a digit. -/
theorem exists_numberChars_eq_cons {n : JsonNumber} (h : n.Fits) :
    ∃ c cs, numberChars n = c :: cs ∧ (c = '-' ∨ c.isDigit) := by
  cases n with
  | int n =>
    cases n with
    | ofNat n =>
      obtain ⟨c, cs, hcs, hc⟩ := exists_toDigits_eq_cons n
      exact ⟨c, cs, (numberChars_ofNat n).trans hcs, .inr hc⟩
    | negSucc n => exact ⟨'-', _, numberChars_negSucc n, .inl rfl⟩
  | real x =>
    obtain ⟨m, hm⟩ := exists_readsAs h
    obtain ⟨c, cs, hcs, hc⟩ := hm.exists_eq_cons
    rw [numberChars, Double.text, String.toList_append, hcs]
    cases x.negative with
    | true => exact ⟨'-', _, rfl, .inl rfl⟩
    | false => exact ⟨c, cs, rfl, .inr hc⟩

end Json

end Ripple
