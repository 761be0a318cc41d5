import Ripple.Toml.Basic
import Ripple.Number.Double
import Ripple.Time.Calendar

/-!
# Numbers and dates of TOML

Digits can be grouped by underscores, each between two digits. An integer is decimal, or
hexadecimal, octal or binary after its mark; it must fit 64 bits. A number with a fraction
or an exponent must not be beyond the largest double, except below. Dates and times must
exist.
-/

namespace Ripple.Toml.Number

/-- The value of a digit, if it is one of a base. -/
def digit? (base : Nat) (c : Char) : Option Nat :=
  let value : Option Nat :=
    if c.isDigit then some (c.toNat - 48)
    else if 'a' ≤ c ∧ c ≤ 'f' then some (c.toNat - 87)
    else if 'A' ≤ c ∧ c ≤ 'F' then some (c.toNat - 55)
    else none
  value.filter (· < base)

/-- The digits after the first, without the underscores between them. -/
def moreDigits (base : Nat) : List Char → Option (List Nat × List Char)
  | [] => some ([], [])
  | c :: rest =>
    if c = '_' then
      match rest with
      | [] => none
      | d :: rest => do
        let n ← digit? base d
        let (digits, rest) ← moreDigits base rest
        return (n :: digits, rest)
    else match digit? base c with
      | none => some ([], c :: rest)
      | some n => do
        let (digits, rest) ← moreDigits base rest
        return (n :: digits, rest)

/-- One or more digits. -/
def digits (base : Nat) : List Char → Option (List Nat × List Char)
  | [] => none
  | c :: rest => do
    let n ← digit? base c
    let (more, rest) ← moreDigits base rest
    return (n :: more, rest)

/-- The number of some digits. -/
def value (base : Nat) (digits : List Nat) : Nat := digits.foldl (fun n d => n * base + d) 0

/-- Decimal digits that do not begin with a zero, unless it is alone. -/
def wholeDigits : List Char → Option (List Nat × List Char)
  | '0' :: rest => some ([0], rest)
  | cs => digits 10 cs

/-- An integer, if it fits. -/
def integer? (n : Int) : Option Toml :=
  if minInteger ≤ n ∧ n ≤ maxInteger then some (.integer n) else none

/-- The sign of a number: whether there is one, and whether it is a minus. -/
def sign (cs : List Char) : Bool × Bool × List Char :=
  match cs with
  | '+' :: rest => (true, false, rest)
  | '-' :: rest => (true, true, rest)
  | cs => (false, false, cs)

/-- Whether digits with a power of ten are beyond the largest double. -/
def overflows (digits : List Nat) (power : Int) : Bool :=
  let significant := digits.dropWhile (· = 0)
  let top : Int := significant.length + power
  if significant.isEmpty || top < 309 then false
  else if 310 ≤ top then true
  else
    let n := value 10 significant
    (if 0 ≤ power then Magnitude.ofRatio? (n * Nat.pow 10 power.toNat) 1
      else Magnitude.ofRatio? n (Nat.pow 10 (-power).toNat)).isNone

/-- The exponent after its mark. -/
def exponent (cs : List Char) : Option (Int × List Char) := do
  let (_, negative, rest) := sign cs
  let (ds, rest) ← digits 10 rest
  let n : Int := value 10 ds
  return (if negative then -n else n, rest)

/-- A decimal number after its sign. -/
def decimal (negative : Bool) (cs : List Char) : Option (Toml × List Char) := do
  let (whole, rest) ← wholeDigits cs
  let (fraction, rest) ← match rest with
    | '.' :: rest => do
      let (fraction, rest) ← digits 10 rest
      pure (some fraction, rest)
    | rest => pure (none, rest)
  let (power, rest) ← match rest with
    | c :: more =>
      if c = 'e' ∨ c = 'E' then do
        let (power, rest) ← exponent more
        pure (some power, rest)
      else pure (none, rest)
    | [] => pure (none, rest)
  match fraction, power with
  | none, none =>
    let n : Int := value 10 whole
    return (← integer? (if negative then -n else n), rest)
  | _, _ =>
    let fraction := fraction.getD []
    if !negative && overflows (whole ++ fraction) (power.getD 0 - fraction.length) then none
    return (.other, rest)

/-- What follows a word. -/
def word? : List Char → List Char → Option (List Char)
  | [], rest => some rest
  | _ :: _, [] => none
  | e :: es, c :: rest => if c = e then word? es rest else none

/-- A number. -/
def number (cs : List Char) : Option (Toml × List Char) :=
  let based (base : Nat) (rest : List Char) : Option (Toml × List Char) := do
    let (ds, rest) ← digits base rest
    return (← integer? (value base ds), rest)
  match cs with
  | '0' :: 'x' :: rest => based 16 rest
  | '0' :: 'o' :: rest => based 8 rest
  | '0' :: 'b' :: rest => based 2 rest
  | cs =>
    let (_, negative, rest) := sign cs
    match word? "inf".toList rest, word? "nan".toList rest with
    | some rest, _ | none, some rest => some (.other, rest)
    | none, none => decimal negative rest

/-! ## Dates and times -/

/-- A number of two digits that is not greater than a bound. -/
def twoDigits (bound : Nat) : List Char → Option (Nat × List Char)
  | a :: b :: rest => do
    let n := (← digit? 10 a) * 10 + (← digit? 10 b)
    if n ≤ bound then return (n, rest) else none
  | _ => none

/-- What follows a mark. -/
def mark (m : Char) : List Char → Option (List Char)
  | c :: rest => if c = m then some rest else none
  | [] => none

/-- What follows a time of day. -/
def time (cs : List Char) : Option (List Char) := do
  let (_, rest) ← twoDigits 23 cs
  let rest ← mark ':' rest
  let (_, rest) ← twoDigits 59 rest
  let rest ← mark ':' rest
  let (_, rest) ← twoDigits 60 rest
  match rest with
  | '.' :: d :: more => return if d.isDigit then more.dropWhile Char.isDigit else rest
  | rest => return rest

/-- What follows an offset from universal time, if there is one. -/
def offset (cs : List Char) : Option (List Char) :=
  match cs with
  | c :: rest =>
    if c = 'Z' ∨ c = 'z' then some rest
    else if c = '+' ∨ c = '-' then do
      let (_, rest) ← twoDigits 23 rest
      let rest ← mark ':' rest
      let (_, rest) ← twoDigits 59 rest
      return rest
    else some cs
  | [] => some []

/-- What follows a date. -/
def date (cs : List Char) : Option (List Char) := do
  let (century, rest) ← twoDigits 99 cs
  let (year, rest) ← twoDigits 99 rest
  let rest ← mark '-' rest
  let (month, rest) ← twoDigits 99 rest
  let rest ← mark '-' rest
  let (day, rest) ← twoDigits 99 rest
  if (Date.mk (century * 100 + year) month day).exists? then return rest else none

/-- What follows a date with a time and an offset or without. -/
def dateTime (cs : List Char) : Option (List Char) := do
  let rest ← date cs
  match rest with
  | t :: a :: more =>
    if (t = 'T' ∨ t = 't' ∨ t = ' ') ∧ a.isDigit then offset (← time (a :: more)) else return rest
  | rest => return rest

/-- Whether a date or a time of day begins, and not a number. -/
def beginsDate (cs : List Char) : Bool × Bool :=
  let row := (cs.takeWhile Char.isDigit).length
  let next := (cs.dropWhile Char.isDigit).head?
  (row == 4 && next == some '-', row == 2 && next == some ':')

/-- A number, a date or a time of day. -/
def read (cs : List Char) : Option (Toml × List Char) :=
  match beginsDate cs with
  | (true, _) => (dateTime cs).map fun rest => (.other, rest)
  | (_, true) => (time cs).map fun rest => (.other, rest)
  | _ => number cs

end Ripple.Toml.Number
