/-!
# Doubles

A `Double` is a finite binary floating-point number of 64 bits, written out: a
sign, a significand below `2 ^ 53` and an exponent from `-1074` to `971`. It
stands for `significand * 2 ^ exponent`. The only way in is `Magnitude.ofRatio?`,
which takes a ratio of natural numbers to the nearest such magnitude, a ratio
halfway between two of them to the one with the even significand.

* `Magnitude.mul?` and `Magnitude.div` are the exact product and quotient, rounded once;
* `Double.ofDecimal?` is the value of `digits * 10 ^ power` as numbers in a text
  are read: the digits are rounded first, then scaled by one rounded power of ten
  (by two or three where the power is below `-308`).
-/

namespace Ripple

/-- The size of a double: `significand * 2 ^ exponent`. -/
structure Magnitude where
  /-- The leading bits, below `2 ^ 53`. -/
  significand : Nat
  /-- The power of two of the last bit, `-1074` for zero and everything subnormal. -/
  exponent : Int
deriving DecidableEq, Repr, Inhabited

/-- A finite double: a sign and a size. Zero has both signs. -/
structure Double where
  /-- Whether the sign is a minus. -/
  negative : Bool
  /-- The size without the sign. -/
  magnitude : Magnitude
deriving DecidableEq, Repr, Inhabited

namespace Magnitude

/-- The exponent of the smallest positive double. -/
def minExponent : Int := -1074

/-- The exponent of the largest double. -/
def maxExponent : Int := 971

/-- `num / den`, rounded to the nearest natural number, a half to the even one. -/
def roundHalfEven (num den : Nat) : Nat :=
  let quotient := num / den
  let twice := 2 * (num % den)
  if twice > den || (twice == den && quotient % 2 == 1) then quotient + 1 else quotient

/-- The ratio `num / den / 2 ^ exponent` as numerator and denominator. -/
def scaleDown (num den : Nat) (exponent : Int) : Nat × Nat :=
  if exponent ≥ 0 then (num, den * Nat.pow 2 exponent.toNat)
  else (num * Nat.pow 2 (-exponent).toNat, den)

/-- The exponent at which `num / den` has a significand of 53 bits, or the least
    exponent where that is larger. -/
def exponentOf (num den : Nat) : Int :=
  let guess : Int := (num.log2 : Int) - den.log2 - 52
  let (n, d) := scaleDown num den guess
  max minExponent (if n < Nat.pow 2 52 * d then guess - 1 else guess)

/-- Zero. -/
def zero : Magnitude := ⟨0, minExponent⟩

/-- The magnitude nearest to `num / den`, or none if that lies beyond the largest. -/
def ofRatio? (num den : Nat) : Option Magnitude :=
  if num == 0 then some zero
  else
    let exponent := exponentOf num den
    let (n, d) := scaleDown num den exponent
    let significand := roundHalfEven n d
    let rounded : Magnitude :=
      if significand == Nat.pow 2 53 then ⟨Nat.pow 2 52, exponent + 1⟩ else ⟨significand, exponent⟩
    if rounded.exponent > maxExponent then none else some rounded

/-- The numerator and denominator of a magnitude. -/
def ratio (m : Magnitude) : Nat × Nat :=
  if m.exponent ≥ 0 then (m.significand * Nat.pow 2 m.exponent.toNat, 1)
  else (m.significand, Nat.pow 2 (-m.exponent).toNat)

/-- The product of two magnitudes, rounded, or none beyond the largest. -/
def mul? (a b : Magnitude) : Option Magnitude :=
  ofRatio? (a.ratio.1 * b.ratio.1) (a.ratio.2 * b.ratio.2)

/-- The quotient of a magnitude by one of at least one, rounded. -/
def div (a b : Magnitude) : Magnitude :=
  (ofRatio? (a.ratio.1 * b.ratio.2) (a.ratio.2 * b.ratio.1)).getD zero

/-- The magnitude of a 64-bit natural number. -/
def ofNat (n : Nat) : Magnitude := (ofRatio? n 1).getD zero

/-- The magnitude nearest to `10 ^ power`, for powers up to 308. -/
def tenTo (power : Nat) : Magnitude := (ofRatio? (Nat.pow 10 power) 1).getD zero

/-- The largest power of ten that is a double. -/
def maxTenPower : Nat := 308

/-- `m / 10 ^ power`. A power beyond the largest power of ten is divided out in
    portions of that size; after `fuel` portions, or at zero, it stops. Two portions
    take every 64-bit number to zero. -/
def shrink (m : Magnitude) (power : Nat) : Nat → Magnitude
  | 0 => zero
  | fuel + 1 =>
    if power ≤ maxTenPower then m.div (tenTo power)
    else if m.significand == 0 then m
    else shrink (m.div (tenTo maxTenPower)) (power - maxTenPower) fuel

/-- The magnitude of `digits * 10 ^ power` for 64-bit `digits`, or none if it is too
    large. The digits are rounded to a double before they are scaled. -/
def ofDecimal? (digits : Nat) (power : Int) : Option Magnitude :=
  let start := ofNat digits
  if power < 0 then some (start.shrink (-power).toNat 4)
  else if power.toNat ≤ maxTenPower then start.mul? (tenTo power.toNat)
  else if start.significand == 0 then some start
  else none

end Magnitude

namespace Double

/-- Zero with a sign. -/
def zero (negative : Bool) : Double := ⟨negative, .zero⟩

/-- The double of a signed decimal, or none if it is too large. -/
def ofDecimal? (negative : Bool) (digits : Nat) (power : Int) : Option Double :=
  (Magnitude.ofDecimal? digits power).map fun m => ⟨negative, m⟩

end Double

end Ripple
