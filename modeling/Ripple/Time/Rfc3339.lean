import Ripple.Time.Instant
import Ripple.Text.Blank
import Ripple.Text.Bytes

/-!
# RFC 3339 timestamps

`Instant.text` writes an instant with the fewest of 0, 3, 6 or 9 digits of a second's
fraction that are exact. There are two readers. `Instant.readStrict` takes what the
format prescribes, with a `t`, a `T` or a blank between date and time.
`Instant.readLenient` also takes years with a sign, numbers with fewer digits, blanks
before numbers and marks, and an offset with any blanks and colons in its middle or
the name `UTC`. Second 60 of any minute is a leap second to both.
-/

namespace Ripple

namespace Instant

/-! ## Writing -/

/-- A number with at least so many digits. -/
def padded (width n : Nat) : String :=
  let digits := toString n
  String.ofList (List.replicate (width - digits.length) '0') ++ digits

/-- A year: four digits from 0 to 9999, else a sign and at least four digits. -/
def yearText (year : Int) : String :=
  if 0 ≤ year ∧ year ≤ 9999 then padded 4 year.toNat
  else (if year < 0 then "-" else "+") ++ padded 4 year.natAbs

/-- The fraction of a second. -/
def fractionText (nanos : Nat) : String :=
  if nanos == 0 then ""
  else if nanos % 1000000 == 0 then "." ++ padded 3 (nanos / 1000000)
  else if nanos % 1000 == 0 then "." ++ padded 6 (nanos / 1000)
  else "." ++ padded 9 nanos

/-- An instant as text, with the given name of universal time. -/
def text (zone : String) (t : Instant) : String :=
  let date := t.date
  let second := t.secondOfDay
  yearText date.year ++ "-" ++ padded 2 date.month ++ "-" ++ padded 2 date.day ++ "T" ++
    padded 2 (second / 3600) ++ ":" ++ padded 2 (second / 60 % 60) ++ ":" ++
    padded 2 (second % 60 + t.nanos / nanosPerSecond) ++
    fractionText (t.nanos % nanosPerSecond) ++ zone

/-- The form in records: universal time is `Z`. -/
def recordText (t : Instant) : String := t.text "Z"

/-- The form in tables: universal time is `+00:00`. -/
def columnText (t : Instant) : String := t.text "+00:00"

/-! ## Reading -/

/-- Why a text is no timestamp. -/
inductive Fault where
  /-- It ends too early. -/
  | premature
  /-- A character stands where it must not. -/
  | invalid
  /-- A number is out of its range. -/
  | outOfRange
  /-- The offset leads out of the years that there are. -/
  | impossible
  /-- Something follows. -/
  | trailing
deriving DecidableEq, Repr

/-- The words for a fault. -/
def Fault.message : Fault → String
  | .premature => "premature end of input"
  | .invalid => "input contains invalid characters"
  | .outOfRange => "input is out of range"
  | .impossible => "no possible date and time matching input"
  | .trailing => "trailing input"

/-- The largest number that is read. -/
def maxNumber : Nat := 9223372036854775807

/-- Appends digits to a number, at most `width` of them. -/
def moreDigits (number : Nat) : (width : Nat) → List Char → Except Fault (Nat × List Char)
  | 0, cs => .ok (number, cs)
  | _, [] => .ok (number, [])
  | width + 1, c :: rest =>
    if c.isDigit then
      let next := number * 10 + (c.toNat - 48)
      if next > maxNumber then .error .outOfRange else moreDigits next width rest
    else .ok (number, c :: rest)

/-- A number of one to `width` digits. -/
def digits (width : Nat) (cs : List Char) : Except Fault (Nat × List Char) :=
  match cs with
  | [] => .error .premature
  | c :: rest => if c.isDigit then moreDigits 0 width (c :: rest) else .error .invalid

/-- A number of exactly two digits, in a text of which enough is left. -/
def twoDigits (cs : List Char) : Except Fault (Nat × List Char) :=
  match cs with
  | a :: b :: rest =>
    if a.isDigit && b.isDigit then .ok ((a.toNat - 48) * 10 + (b.toNat - 48), rest)
    else .error .invalid
  | _ => .error .invalid

/-- A mark. -/
def mark (m : Char) (cs : List Char) : Except Fault (List Char) :=
  match cs with
  | [] => .error .premature
  | c :: rest => if c = m then .ok rest else .error .invalid

/-- The digits of a fraction of a second in nanoseconds; those past the ninth are dropped. -/
def fraction (cs : List Char) : Except Fault (Nat × List Char) := do
  let (value, rest) ← digits 9 cs
  return (value * Nat.pow 10 (9 - (cs.length - rest.length)), rest.dropWhile Char.isDigit)

/-- A fraction of a second after a point, if there is one. -/
def fraction? (cs : List Char) : Except Fault (Nat × List Char) :=
  match cs with
  | [] => .ok (0, [])
  | c :: rest => if c = '.' then fraction rest else .ok (0, c :: rest)

/-- A number of two digits of an offset. -/
def offsetDigits (cs : List Char) : Except Fault ((Char × Char) × List Char) :=
  match cs with
  | a :: b :: rest => .ok ((a, b), rest)
  | cs => if Text.byteCount cs < 2 then .error .premature else .error .invalid

/-- The hours of an offset. -/
def offsetHours (cs : List Char) : Except Fault (Nat × List Char) := do
  let ((a, b), rest) ← offsetDigits cs
  if a.isDigit && b.isDigit then return ((a.toNat - 48) * 10 + (b.toNat - 48), rest)
  else throw .invalid

/-- The minutes of an offset. -/
def offsetMinutes (cs : List Char) : Except Fault (Nat × List Char) := do
  let ((a, b), rest) ← offsetDigits cs
  if a.isDigit && b.isDigit then
    if a.toNat - 48 < 6 then return ((a.toNat - 48) * 10 + (b.toNat - 48), rest)
    else throw .outOfRange
  else throw .invalid

/-- The sign of an offset: whether it is negative. -/
def offsetSign (cs : List Char) : Except Fault (Bool × List Char) :=
  match cs with
  | [] => .error .premature
  | c :: rest =>
    if c = '+' then .ok (false, rest)
    else if c = '-' ∨ c = '−' then .ok (true, rest)
    else .error .invalid

/-- An offset in seconds. `separate` passes what stands between hours and minutes. -/
def offset (separate : List Char → Except Fault (List Char)) (cs : List Char) :
    Except Fault (Int × List Char) :=
  let signed : Except Fault (Int × List Char) := do
    let (negative, rest) ← offsetSign cs
    let (hours, rest) ← offsetHours rest
    let rest ← separate rest
    let (minutes, rest) ← offsetMinutes rest
    let seconds : Int := hours * 3600 + minutes * 60
    return (if negative then -seconds else seconds, rest)
  match cs with
  | [] => .error .premature
  | c :: rest => if c = 'Z' ∨ c = 'z' then .ok (0, rest) else signed

/-- The instant of a date, a time of day and an offset. -/
def ofFields (date : Date) (hour minute second nanos : Nat) (offset : Int) :
    Except Fault Instant :=
  if offset ≤ -86400 ∨ 86400 ≤ offset then .error .outOfRange
  else
    let extra := if second == 60 then nanosPerSecond else 0
    let time : Int := hour * 3600 + minute * 60 + (if second == 60 then 59 else second : Nat)
    match ofParts? (date.toDays * 86400 + time - offset) (extra + nanos) with
    | some t => .ok t
    | none => .error .impossible

/-- Whether there is such a time of day. -/
def isTime (hour minute second : Nat) : Bool := hour < 24 && minute < 60 && second ≤ 60

/-- A text of the prescribed form. -/
def readStrict (text : String) : Except Fault Instant := do
  let cs := text.toList
  if Text.byteCount cs < 19 then throw .premature
  let (century, cs) ← twoDigits cs
  let (year, cs) ← twoDigits cs
  let cs ← mark '-' cs
  let (month, cs) ← twoDigits cs
  let cs ← mark '-' cs
  let (day, cs) ← twoDigits cs
  let date : Date := ⟨century * 100 + year, month, day⟩
  if !date.exists? then throw .outOfRange
  let cs ← match cs with
    | c :: rest => if c = 't' ∨ c = 'T' ∨ c = ' ' then pure rest else throw .invalid
    | [] => throw .invalid
  let (hour, cs) ← twoDigits cs
  let cs ← mark ':' cs
  let (minute, cs) ← twoDigits cs
  let cs ← mark ':' cs
  let (second, cs) ← twoDigits cs
  let (nanos, cs) ← fraction? cs
  if !isTime hour minute second then throw .outOfRange
  let (offset, cs) ← offset (mark ':') cs
  if !cs.isEmpty then throw .trailing
  ofFields date hour minute second nanos offset

/-- A number of a text of the wider form, after blanks, that must lie in a range. -/
def looseNumber (low high : Nat) (cs : List Char) : Except Fault (Nat × List Char) := do
  let (n, rest) ← digits 2 (Text.trimLeft cs)
  if n < low ∨ high < n then throw .outOfRange
  return (n, rest)

/-- A mark of a text of the wider form, after blanks. -/
def looseMark (m : Char) (cs : List Char) : Except Fault (List Char) :=
  mark m (Text.trimLeft cs)

/-- A year of the wider form: up to four digits, or any number of them after a sign. -/
def looseYear (cs : List Char) : Except Fault (Int × List Char) := do
  let cs := Text.trimLeft cs
  let (year, rest) : Int × List Char ← match cs with
    | [] => throw .premature
    | c :: rest =>
      if c = '-' then do let (n, rest) ← digits rest.length rest; pure (-(n : Int), rest)
      else if c = '+' then do let (n, rest) ← digits rest.length rest; pure ((n : Int), rest)
      else do let (n, rest) ← digits 4 (c :: rest); pure ((n : Int), rest)
  if year < -2147483648 ∨ 2147483647 < year then throw .outOfRange
  return (year, rest)

/-- An offset of the wider form. -/
def looseOffset (cs : List Char) : Except Fault (Int × List Char) :=
  match cs with
  | u :: t :: c :: rest =>
    if u.toUpper = 'U' ∧ t.toUpper = 'T' ∧ c.toUpper = 'C' then .ok (0, rest)
    else offset separate cs
  | cs => offset separate cs
where
  separate (cs : List Char) : Except Fault (List Char) :=
    .ok (cs.dropWhile fun c => c = ':' || Text.isBlank c)

/-- The years that there are. -/
def isYear (year : Int) : Bool := -262143 ≤ year && year ≤ 262142

/-- A text of the wider form. -/
def readLenient (text : String) : Except Fault Instant := do
  let (year, cs) ← looseYear text.toList
  let cs ← looseMark '-' cs
  let (month, cs) ← looseNumber 1 12 cs
  let cs ← looseMark '-' cs
  let (day, cs) ← looseNumber 1 31 cs
  let cs ← match cs with
    | c :: rest => if c = 't' ∨ c = 'T' ∨ c = ' ' then pure rest else throw .invalid
    | [] => throw .premature
  let (hour, cs) ← looseNumber 0 23 cs
  let cs ← looseMark ':' cs
  let (minute, cs) ← looseNumber 0 59 cs
  let cs ← looseMark ':' cs
  let (second, cs) ← looseNumber 0 60 cs
  let (nanos, cs) ← fraction? cs
  let (offset, cs) ← looseOffset (Text.trimLeft cs)
  if !(Text.trimLeft cs).isEmpty then throw .trailing
  let date : Date := ⟨year, month, day⟩
  if !(isYear year && date.exists?) then throw .outOfRange
  ofFields date hour minute second nanos offset

end Instant

end Ripple
