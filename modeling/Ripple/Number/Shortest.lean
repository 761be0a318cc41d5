import Ripple.Number.Double

/-!
# Shortest decimals

The text of a double has the fewest decimal digits that read back as the same
double, and among those the ones nearest to it. `Magnitude.Interval` holds the
reals that round to a magnitude; for 1, 2, … 17 digits `Interval.onGrid?` looks at
the two neighbours of the magnitude on that decimal grid. `Double.text` lays the
digits out: positionally from `1e-5` up to `1e16`, with an exponent elsewhere.
-/

namespace Ripple

/-- A decimal `digits * 10 ^ power`. -/
structure Decimal where
  /-- The digits as one number. -/
  digits : Nat
  /-- The power of ten of the last digit. -/
  power : Int
deriving DecidableEq, Repr

namespace Magnitude

/-- The reals that round to a magnitude, over a common denominator. -/
structure Interval where
  /-- The lower end. -/
  low : Nat
  /-- The magnitude itself. -/
  middle : Nat
  /-- The upper end. -/
  high : Nat
  /-- The denominator of all three. -/
  unit : Nat
  /-- Whether the ends belong to it. -/
  closed : Bool

/-- The interval of a magnitude: half a unit of the last bit to each side, a quarter
    below a power of two. The ends round to it if its significand is even. -/
def interval (m : Magnitude) : Interval :=
  let below := if m.significand == Nat.pow 2 52 && m.exponent > minExponent then 1 else 2
  let (scale, unit) : Nat × Nat :=
    if m.exponent ≥ 2 then (Nat.pow 2 (m.exponent - 2).toNat, 1)
    else (1, Nat.pow 2 (2 - m.exponent).toNat)
  { low := (4 * m.significand - below) * scale
    middle := 4 * m.significand * scale
    high := (4 * m.significand + 2) * scale
    unit
    closed := m.significand % 2 == 0 }

namespace Interval

/-- The decimal `digits * 10 ^ power` over the interval's denominator, and the factor
    by which the interval has to be scaled to compare with it. -/
def place (i : Interval) (digits : Nat) (power : Int) : Nat × Nat :=
  if power ≥ 0 then (digits * Nat.pow 10 power.toNat * i.unit, 1)
  else (digits * i.unit, Nat.pow 10 (-power).toNat)

/-- Whether a decimal lies in the interval. -/
def holds (i : Interval) (digits : Nat) (power : Int) : Bool :=
  let (x, scale) := i.place digits power
  if i.closed then i.low * scale ≤ x && x ≤ i.high * scale
  else i.low * scale < x && x < i.high * scale

/-- How far a decimal is from the middle, over a denominator that depends on the
    power only. -/
def distance (i : Interval) (digits : Nat) (power : Int) : Nat :=
  let (x, scale) := i.place digits power
  (x - i.middle * scale) + (i.middle * scale - x)

/-- The last point of the grid of multiples of `10 ^ power` that is not above the middle. -/
def floor (i : Interval) (power : Int) : Nat :=
  if power ≥ 0 then i.middle / (Nat.pow 10 power.toNat * i.unit)
  else i.middle * Nat.pow 10 (-power).toNat / i.unit

/-- The nearer of the middle's two neighbours on a decimal grid, if it lies in the
    interval; the even one of two that are equally near. -/
def onGrid? (i : Interval) (power : Int) : Option Decimal :=
  let lower := i.floor power
  let upper := lower + 1
  match i.holds lower power, i.holds upper power with
  | true, false => some ⟨lower, power⟩
  | false, true => some ⟨upper, power⟩
  | false, false => none
  | true, true =>
    let toLower := i.distance lower power
    let toUpper := i.distance upper power
    if toLower < toUpper || (toLower == toUpper && lower % 2 == 0) then some ⟨lower, power⟩
    else some ⟨upper, power⟩

/-- The power of ten of the middle's leading digit. -/
def leadingPower (i : Interval) : Int :=
  if i.middle ≥ i.unit then ((toString (i.middle / i.unit)).length : Int) - 1
  else
    let inverse := i.unit / i.middle
    let length := (toString inverse).length
    if inverse == Nat.pow 10 (length - 1) && i.unit % i.middle == 0 then 1 - (length : Int)
    else -(length : Int)

/-- The first hit on the grids of `count`, `count + 1`, … digits, `tries` grids in all. -/
def firstHit (i : Interval) (leading : Int) (count : Nat) : Nat → Decimal
  | 0 => ⟨i.floor (leading + 1 - count), leading + 1 - count⟩
  | tries + 1 => (i.onGrid? (leading + 1 - count)).getD (i.firstHit leading (count + 1) tries)

end Interval

/-- The shortest decimal of a positive magnitude. -/
def shortest (m : Magnitude) : Decimal :=
  let i := m.interval
  let hit := i.firstHit i.leadingPower 1 17
  if hit.digits % 10 == 0 then ⟨hit.digits / 10, hit.power + 1⟩ else hit

end Magnitude

namespace Decimal

/-- A decimal as text: `120.0`, `1.25`, `0.00125` from `1e-5` up to `1e16`, else
    `1.25e-6` or `1e+16`. -/
def text (d : Decimal) : String :=
  let digits := toString d.digits
  let count : Int := digits.length
  let point := count + d.power
  if 0 ≤ d.power ∧ point ≤ 16 then
    digits ++ String.ofList (List.replicate d.power.toNat '0') ++ ".0"
  else if 0 < point ∧ point ≤ 16 then
    String.ofList (digits.toList.take point.toNat) ++ "." ++
      String.ofList (digits.toList.drop point.toNat)
  else if -5 < point ∧ point ≤ 0 then
    "0." ++ String.ofList (List.replicate (-point).toNat '0') ++ digits
  else
    let mantissa := match digits.toList with
      | first :: more@(_ :: _) => String.ofList (first :: '.' :: more)
      | _ => digits
    let exponent := point - 1
    mantissa ++ (if exponent < 0 then "e-" else "e+") ++ toString exponent.natAbs

end Decimal

/-- The text of a double: the shortest decimal that reads back as it. -/
def Double.text (d : Double) : String :=
  (if d.negative then "-" else "") ++
    if d.magnitude.significand == 0 then "0.0" else d.magnitude.shortest.text

end Ripple
