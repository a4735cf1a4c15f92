/-!
# Days of the calendar

A day is counted from 1970-01-01 in the proleptic Gregorian calendar, and
named by year, month and day of the month.  The days that can be named run
from -262143-01-01 to +262142-12-31.

The count is taken in years that begin in March, so that the leap day is the
last of its year: four hundred such years have 146097 days whatever year they
start with, and the days before a month of a year follow one straight line.

* `countDays` — from year, month and day to the count;
* `civilOf` — from the count back;
* `Day` — a count within the calendar's range.
-/

namespace PeerWatch.Calendar

/-- The years of a date, its month (1 to 12) and its day of the month. -/
structure Civil where
  year : Int
  month : Nat
  day : Nat
deriving DecidableEq, Repr

/-- A leap year: divisible by 4, but by 100 only if by 400. -/
def isLeap (year : Int) : Bool :=
  year % 4 = 0 && (year % 100 ≠ 0 || year % 400 = 0)

/-- The number of days of a month. -/
def daysInMonth (year : Int) (month : Nat) : Nat :=
  if month = 2 then (if isLeap year then 29 else 28)
  else if month = 4 ∨ month = 6 ∨ month = 9 ∨ month = 11 then 30
  else 31

/-- A month of the calendar and a day that it has. -/
def Civil.IsValid (c : Civil) : Prop :=
  1 ≤ c.month ∧ c.month ≤ 12 ∧ 1 ≤ c.day ∧ c.day ≤ daysInMonth c.year c.month

instance (c : Civil) : Decidable c.IsValid :=
  inferInstanceAs (Decidable (_ ∧ _ ∧ _ ∧ _))

/-- The days from 1970-01-01 to a date. -/
def countDays (c : Civil) : Int :=
  let year := if c.month ≤ 2 then c.year - 1 else c.year
  let era := year / 400
  let yearOfEra := year % 400
  let monthFromMarch : Int := if c.month ≤ 2 then c.month + 9 else c.month - 3
  let dayOfYear := (153 * monthFromMarch + 2) / 5 + c.day - 1
  let dayOfEra := yearOfEra * 365 + yearOfEra / 4 - yearOfEra / 100 + dayOfYear
  era * 146097 + dayOfEra - 719468

/-- The date that lies a number of days after 1970-01-01. -/
def civilOf (number : Int) : Civil :=
  let shifted := number + 719468
  let era := shifted / 146097
  let dayOfEra := shifted % 146097
  let yearOfEra := (dayOfEra - dayOfEra / 1460 + dayOfEra / 36524 - dayOfEra / 146096) / 365
  let dayOfYear := dayOfEra - (365 * yearOfEra + yearOfEra / 4 - yearOfEra / 100)
  let monthFromMarch := (5 * dayOfYear + 2) / 153
  let day := dayOfYear - (153 * monthFromMarch + 2) / 5 + 1
  let month := if monthFromMarch < 10 then monthFromMarch + 3 else monthFromMarch - 9
  let year := yearOfEra + era * 400 + (if month ≤ 2 then 1 else 0)
  ⟨year, month.toNat, day.toNat⟩

/-- The first day of the calendar, -262143-01-01. -/
def firstNumber : Int := -96465292

/-- The last day of the calendar, +262142-12-31. -/
def lastNumber : Int := 95026236

/-- A day of the calendar. -/
structure Day where
  /-- Days since 1970-01-01. -/
  number : Int
  inRange : firstNumber ≤ number ∧ number ≤ lastNumber
deriving DecidableEq

namespace Day

instance : Ord Day := ⟨fun a b => compare a.number b.number⟩

instance : LE Day := ⟨fun a b => a.number ≤ b.number⟩

instance : LT Day := ⟨fun a b => a.number < b.number⟩

instance (a b : Day) : Decidable (a ≤ b) := inferInstanceAs (Decidable (a.number ≤ b.number))

instance (a b : Day) : Decidable (a < b) := inferInstanceAs (Decidable (a.number < b.number))

/-- 1970-01-01. -/
def epoch : Day := ⟨0, by decide⟩

instance : Inhabited Day := ⟨epoch⟩

def first : Day := ⟨firstNumber, by decide⟩

def last : Day := ⟨lastNumber, by decide⟩

/-- The day with a given count, if the calendar has it. -/
def ofNumber? (number : Int) : Option Day :=
  if h : firstNumber ≤ number ∧ number ≤ lastNumber then some ⟨number, h⟩ else none

/-- The day of a date, if there is such a date in the calendar's range. -/
def ofCivil? (c : Civil) : Option Day :=
  if c.IsValid then ofNumber? (countDays c) else none

/-- The date of a day. -/
def civil (d : Day) : Civil := civilOf d.number

/-- The day `n` days earlier, if the calendar has it. -/
def back? (d : Day) (n : Nat) : Option Day :=
  ofNumber? (d.number - n)

end Day

end PeerWatch.Calendar
