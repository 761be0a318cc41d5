import Ripple.Time.Calendar

/-!
# Instants

An `Instant` is a moment in universal time, to the nanosecond: the seconds since
the beginning of 1970 and the nanoseconds since that second. A leap second is the
second after second 59 of a minute; it is written as more than `10 ^ 9` nanoseconds
since second 59. Years reach from -262143 to 262142.
-/

namespace Ripple

namespace Instant

/-- The nanoseconds of a second. -/
def nanosPerSecond : Nat := 1000000000

/-- The first second of the first year. -/
def firstSecond : Int := (Date.mk (-262143) 1 1).toDays * 86400

/-- The last second of the last year. -/
def lastSecond : Int := (Date.mk 262142 12 31).toDays * 86400 + 86399

/-- Whether there is such an instant. -/
def Holds (seconds : Int) (nanos : Nat) : Prop :=
  firstSecond ≤ seconds ∧ seconds ≤ lastSecond ∧ nanos < 2 * nanosPerSecond ∧
    (nanos < nanosPerSecond ∨ seconds % 60 = 59)

instance (seconds : Int) (nanos : Nat) : Decidable (Holds seconds nanos) := by
  unfold Holds; infer_instance

end Instant

/-- A moment in universal time. -/
structure Instant where
  /-- The seconds since the beginning of 1970. -/
  seconds : Int
  /-- The nanoseconds since that second, more than `10 ^ 9` in a leap second. -/
  nanos : Nat
  /-- There is such an instant. -/
  holds : Instant.Holds seconds nanos
deriving DecidableEq

namespace Instant

/-- The instant with these parts, if there is one. -/
def ofParts? (seconds : Int) (nanos : Nat) : Option Instant :=
  if h : Holds seconds nanos then some ⟨seconds, nanos, h⟩ else none

/-- The beginning of 1970. -/
def epoch : Instant := ⟨0, 0, by decide⟩

instance : Inhabited Instant := ⟨epoch⟩

/-- The milliseconds since the beginning of 1970, rounded down. -/
def milliseconds (t : Instant) : Int := t.seconds * 1000 + t.nanos / 1000000

/-- The day of an instant. -/
def date (t : Instant) : Date := .ofDays (t.seconds / 86400)

/-- The seconds since the beginning of the day. -/
def secondOfDay (t : Instant) : Nat := (t.seconds % 86400).toNat

end Instant

end Ripple
