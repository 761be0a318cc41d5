import Ripple.Json.Draft
import Ripple.Json.Printer
import Ripple.Proofs.Except
import Ripple.Proofs.Number.Numeral
import Mathlib.Algebra.Ring.Int.Defs

/-!
# Reading numbers back

A number ends where a comma, a bracket or nothing follows (`Follows`), which is all that
can follow one in a compact text. An integer of 64 bits is read from its digits as it was
(`number_toDigits`).
-/

namespace Ripple.Json

/-- What can follow a value in a compact text: nothing, a comma or a closing bracket. -/
def Follows (rest : List Char) : Prop := ∀ c ∈ rest.head?, c = ',' ∨ c = ']' ∨ c = '\x7d'

namespace Follows

variable {rest : List Char}

theorem nil : Follows [] := by simp [Follows]

theorem cons {c : Char} (h : c = ',' ∨ c = ']' ∨ c = '\x7d') (rest : List Char) :
    Follows (c :: rest) := by
  simpa [Follows] using h

theorem not_isDigit (h : Follows rest) : ∀ c ∈ rest.head?, ¬c.isDigit := by
  intro c hc
  rcases h c hc with rfl | rfl | rfl <;> decide

theorem fractionPart (h : Follows rest) : fractionPart rest = .ok (none, rest) := by
  cases rest with
  | nil => rfl
  | cons c rest =>
    have hc : c ≠ '.' := by
      rcases h c rfl with rfl | rfl | rfl <;> decide
    simp [Json.fractionPart, hc]

theorem exponentPart (h : Follows rest) : exponentPart rest = .ok (none, rest) := by
  cases rest with
  | nil => rfl
  | cons c rest =>
    have hc : ¬(c = 'e' ∨ c = 'E') := by
      rcases h c rfl with rfl | rfl | rfl <;> decide
    simp [Json.exponentPart, hc]

end Follows

/-! ## Integers -/

/-- Digits that fit 64 bits are gathered to the last. -/
theorem gather_eq {cs : List Char} {number : ℕ} (h : Nat.ofDigitChars 10 cs number < UInt64.size) :
    gather number cs = (Nat.ofDigitChars 10 cs number, 0) := by
  induction cs generalizing number with
  | nil => rfl
  | cons c cs ih =>
    rw [ofDigitChars_ten_cons, ← digitValue] at h ⊢
    rw [gather, if_pos ((le_ofDigitChars cs _).trans_lt h), ih h]

/-- Whether some digits can stand before a point: there are some, and a zero stands alone. -/
structure IsWhole (whole : List Char) : Prop where
  ne_nil : whole ≠ []
  zero : whole.head? = some '0' → whole = ['0']

theorem IsWhole.of_head {whole : List Char} (hne : whole ≠ []) (h : whole.head? ≠ some '0') :
    IsWhole whole :=
  ⟨hne, fun hzero => absurd hzero h⟩

theorem isWhole_toDigits (n : ℕ) : IsWhole (Nat.toDigits 10 n) := by
  rcases Nat.eq_zero_or_pos n with rfl | hpos
  · rw [Nat.toDigits_zero]
    exact ⟨by simp, fun _ => rfl⟩
  · exact .of_head Nat.toDigits_ne_nil (head_toDigits_ne_zero hpos)

/-- Digits before a point are read to the last. -/
theorem wholePart_append {whole rest : List Char} {n : ℕ} (h : IsNumeral whole n)
    (hwhole : IsWhole whole) (hrest : ∀ c ∈ rest.head?, ¬c.isDigit) :
    wholePart (whole ++ rest) = .ok (whole, rest) := by
  obtain ⟨first, more, rfl⟩ := List.exists_cons_of_ne_nil hwhole.ne_nil
  have hfirst : ¬(first = '0' ∧ more ≠ []) := by
    rintro ⟨rfl, hmore⟩
    exact hmore (List.cons.inj (hwhole.zero rfl)).2
  rw [wholePart, h.takeWhile_append hrest, h.dropWhile_append hrest]
  simp only [hfirst, if_false]

/-- The digits of a number are its whole part. -/
theorem wholePart_toDigits (n : ℕ) {rest : List Char} (hrest : ∀ c ∈ rest.head?, ¬c.isDigit) :
    wholePart (Nat.toDigits 10 n ++ rest) = .ok (Nat.toDigits 10 n, rest) :=
  wholePart_append (isNumeral_toDigits n) (isWhole_toDigits n) hrest

/-- A number is read part by part. -/
theorem number_eq_ok {negative : Bool} {cs rest₁ rest₂ rest whole : List Char}
    {fraction : Option (List Char)} {exponent : Option (Bool × List Char)}
    (hwhole : wholePart cs = .ok (whole, rest₁))
    (hfraction : fractionPart rest₁ = .ok (fraction, rest₂))
    (hexponent : exponentPart rest₂ = .ok (exponent, rest)) :
    number negative cs = .ok (numberValue negative whole fraction exponent rest, rest) := by
  rw [number, hwhole, ok_bind]
  dsimp only
  rw [hfraction, ok_bind]
  dsimp only
  rw [hexponent, ok_bind]
  rfl

theorem numberValue_whole {negative : Bool} {whole rest : List Char} {digits : ℕ}
    (h : gather 0 whole = (digits, 0)) :
    numberValue negative whole none none rest = .ok (integerValue negative digits) := by
  rw [numberValue, h]
  rfl

/-- An integer is read from its digits. -/
theorem number_toDigits {negative : Bool} {n : ℕ} (h : n < UInt64.size) {rest : List Char}
    (hrest : Follows rest) : number negative (Nat.toDigits 10 n ++ rest) =
      .ok (.ok (integerValue negative n), rest) := by
  have hvalue : Nat.ofDigitChars 10 (Nat.toDigits 10 n) 0 = n := Nat.ofDigitChars_ten_toDigits
  have hgather := gather_eq (hvalue.trans_lt h)
  rw [hvalue] at hgather
  rw [number_eq_ok (wholePart_toDigits n hrest.not_isDigit) hrest.fractionPart hrest.exponentPart,
    numberValue_whole hgather]

/-! ## As values -/

variable {fuel depth : ℕ}

theorem valueAt_minus {cs rest : List Char} {value : Except Fault JsonNumber}
    (h : number true cs = .ok (value, rest)) :
    valueAt (fuel + 1) depth ('-' :: cs) = (.num value, some rest) := by
  change Piece.ofLeaf .num (number true cs) = _
  rw [h]
  rfl

theorem valueAt_digit {c : Char} {cs rest : List Char} {value : Except Fault JsonNumber}
    (hc : c.isDigit) (h : number false (c :: cs) = .ok (value, rest)) :
    valueAt (fuel + 1) depth (c :: cs) = (.num value, some rest) := by
  obtain ⟨hlow, hhigh⟩ := Char.isDigit_iff_toNat.1 hc
  have hne (d : Char) (hd : d.toNat < 48 ∨ 57 < d.toNat) : c ≠ d := by
    rintro rfl
    have hzero : '0'.toNat = 48 := rfl
    have hnine : '9'.toNat = 57 := rfl
    omega
  have hblank : skipBlanks (c :: cs) = c :: cs := by
    rw [skipBlanks, List.dropWhile_cons_of_neg]
    simp [isBlank, hne ' ' (by decide), hne '\t' (by decide), hne '\n' (by decide),
      hne '\r' (by decide)]
  simp only [valueAt, hblank, hne '[' (by decide), hne '\x7b' (by decide), hne '"' (by decide),
    hne '-' (by decide), hc, if_false, if_true, h]
  rfl

theorem exists_toDigits_eq_cons (n : ℕ) :
    ∃ c cs, Nat.toDigits 10 n = c :: cs ∧ c.isDigit := by
  obtain ⟨c, cs, hcs⟩ := List.exists_cons_of_ne_nil (Nat.toDigits_ne_nil (n := n) (b := 10))
  exact ⟨c, cs, hcs, (isNumeral_toDigits n).digits c (by rw [hcs]; exact List.mem_cons_self)⟩

theorem numberChars_ofNat (n : ℕ) : numberChars (.int (.ofNat n)) = Nat.toDigits 10 n :=
  Nat.toList_repr

theorem numberChars_negSucc (n : ℕ) :
    numberChars (.int (.negSucc n)) = '-' :: Nat.toDigits 10 (n + 1) := by
  change ("-" ++ (n + 1).repr).toList = _
  rw [String.toList_append, Nat.toList_repr]
  rfl

/-- An integer of 64 bits is read from its text. -/
theorem valueAt_int {n : ℤ} (h : -9223372036854775808 ≤ n ∧ n < 18446744073709551616)
    {rest : List Char} (hrest : Follows rest) :
    valueAt (fuel + 1) depth (numberChars (.int n) ++ rest) =
      (.num (.ok (.int n)), some rest) := by
  cases n with
  | ofNat n =>
    have hread : number false (Nat.toDigits 10 n ++ rest) = .ok (.ok (.int n), rest) :=
      number_toDigits (show n < 18446744073709551616 by simp at h; omega) hrest
    obtain ⟨c, cs, hdigits, hc⟩ := exists_toDigits_eq_cons n
    rw [hdigits] at hread
    rw [numberChars_ofNat, hdigits]
    exact valueAt_digit hc hread
  | negSucc n =>
    have hvalue : integerValue true (n + 1) = .int (.negSucc n) := by
      have hnot : (n + 1 == 0 || decide (n + 1 > 9223372036854775808)) = false := by
        simp only [Bool.or_eq_false_iff, beq_eq_false_iff_ne, decide_eq_false_iff_not]
        omega
      simp only [integerValue, hnot, if_true, Bool.false_eq_true, if_false]
      rfl
    have hread : number true (Nat.toDigits 10 (n + 1) ++ rest) =
        .ok (.ok (.int (.negSucc n)), rest) :=
      hvalue ▸ number_toDigits (show n + 1 < 18446744073709551616 by omega) hrest
    rw [numberChars_negSucc]
    exact valueAt_minus hread

end Ripple.Json
