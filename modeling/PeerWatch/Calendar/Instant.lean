import PeerWatch.Calendar.Day

/-!
# Instants

A moment of universal time: whole seconds since 1970 and nanoseconds within
the second.  A leap second is told by nanoseconds of 10⁹ and more, and belongs
to the second that it follows.

* `Instant.day`, `minuteOfDay`, `secondOfMinute` — where it falls;
* `toMillis`, `ofMillis?` — the moment in whole milliseconds.
-/

namespace PeerWatch.Calendar

/-- A day has as many seconds, since leap seconds are not counted. -/
def secondsPerDay : Int := 86400

/-- A moment of universal time. -/
structure Instant where
  /-- Whole seconds since 1970-01-01T00:00:00. -/
  seconds : Int
  nanos : Nat
  /-- The day of the moment is in the calendar. -/
  inRange : firstNumber ≤ seconds / secondsPerDay ∧ seconds / secondsPerDay ≤ lastNumber
  /-- A second has 10⁹ nanoseconds, and as many again if a leap second follows it. -/
  nanos_lt : nanos < 2000000000
deriving DecidableEq

namespace Instant

/-- Earlier second first, then fewer nanoseconds. -/
instance : Ord Instant :=
  ⟨compareLex (compareOn (·.seconds)) (compareOn (·.nanos))⟩

instance : Inhabited Instant := ⟨⟨0, 0, by decide, by decide⟩⟩

/-- The moment with the given seconds and nanoseconds, if there is one. -/
def ofParts? (seconds : Int) (nanos : Nat) : Option Instant :=
  if h : firstNumber ≤ seconds / secondsPerDay ∧ seconds / secondsPerDay ≤ lastNumber then
    if h' : nanos < 2000000000 then
      some ⟨seconds, nanos, h, h'⟩
    else none
  else none

/-- The day of a moment. -/
def day (t : Instant) : Day := ⟨t.seconds / secondsPerDay, t.inRange⟩

/-- The minute of its day, from 0 to 1439. -/
def minuteOfDay (t : Instant) : Nat := (t.seconds % secondsPerDay / 60).toNat

/-- The second of its minute, from 0 to 59; a leap second counts as the one it follows. -/
def secondOfMinute (t : Instant) : Nat := (t.seconds % 60).toNat

/-- Whether a moment is within a leap second. -/
def isLeapSecond (t : Instant) : Bool := 1000000000 ≤ t.nanos

/-- Whole milliseconds since 1970; those of a leap second run on into the
next second. -/
def toMillis (t : Instant) : Int := t.seconds * 1000 + (t.nanos / 1000000 : Nat)

/-- The moment a number of milliseconds after 1970, if the calendar has it. -/
def ofMillis? (ms : Int) : Option Instant :=
  if h : firstNumber ≤ ms / 1000 / secondsPerDay ∧ ms / 1000 / secondsPerDay ≤ lastNumber then
    some ⟨ms / 1000, (ms % 1000).toNat * 1000000, h, by omega⟩
  else none

end Instant

end PeerWatch.Calendar
