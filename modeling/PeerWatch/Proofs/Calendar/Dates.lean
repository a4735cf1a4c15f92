import PeerWatch.Calendar.Day

/-!
# Days and dates

The date of a day is a date of the calendar, and counting the days to it gives
the day back; so a day is known by its date.  A later day has a later date, in
the order of year, month and day of the month.

The arithmetic is done in eras of four hundred years that begin in March.  An
`EraDay` names a day of an era by century, cycle of four years, year of the
cycle and day of the year; the last day of a leap year is the only one with
number 365.

* `isValid_civilOf`, `countDays_civilOf` — the date of a count;
* `Day.ofCivil?_civil` — the day of the date of a day;
* `countDays_lt_of_before`, `Day.lt_iff_civil` — the order of dates;
* `civilOf_add_one`, `isDaysTo_civilOf` — the dates one after another;
* `Day.exists_civil_iff` — the dates of the calendar.
-/

namespace PeerWatch.Calendar

/-- A day of an era of four hundred years; its years begin in March. -/
structure EraDay where
  century : Int
  cycle : Int
  year : Int
  day : Int
  century_range : 0 ≤ century ∧ century ≤ 3
  cycle_range : 0 ≤ cycle ∧ cycle ≤ 24
  year_range : 0 ≤ year ∧ year ≤ 3
  day_range : 0 ≤ day ∧ day ≤ 365
  /-- Only the last year of a cycle is a leap year, and of the last cycle of a
  century only that of the last century. -/
  leap_day : day = 365 → year = 3 ∧ (cycle = 24 → century = 3)

namespace EraDay

/-- The days of the era before the day. -/
def number (e : EraDay) : Int := 36524 * e.century + 1461 * e.cycle + 365 * e.year + e.day

/-- The years of the era before the day. -/
def yearOfEra (e : EraDay) : Int := 100 * e.century + 4 * e.cycle + e.year

/-- Every day of an era has a name. -/
theorem exists_number_eq {n : Int} (hn : 0 ≤ n ∧ n ≤ 146096) : ∃ e : EraDay, e.number = n := by
  let century := min (n / 36524) 3
  let ofCentury := n - 36524 * century
  let cycle := ofCentury / 1461
  let ofCycle := ofCentury - 1461 * cycle
  let year := min (ofCycle / 365) 3
  refine ⟨⟨century, cycle, year, ofCycle - 365 * year, ?_, ?_, ?_, ?_, ?_⟩, ?_⟩
  case refine_6 => simp only [number]; omega
  all_goals omega

/-- The day is one of the era's. -/
theorem number_range (e : EraDay) : 0 ≤ e.number ∧ e.number ≤ 146096 := by
  obtain ⟨c, q, k, t, hc, hq, hk, ht, hleap⟩ := e
  simp only [number]
  omega

/-- The year is one of the era's. -/
theorem yearOfEra_range (e : EraDay) : 0 ≤ e.yearOfEra ∧ e.yearOfEra ≤ 399 := by
  have := e.century_range
  have := e.cycle_range
  have := e.year_range
  simp only [yearOfEra]
  omega

/-- The century of an era day, from its number. -/
theorem century_eq (e : EraDay) : e.number / 36524 - e.number / 146096 = e.century := by
  obtain ⟨c, q, k, t, hc, hq, hk, ht, hleap⟩ := e
  simp only [number]
  generalize hr : 1461 * q + 365 * k + t = r
  have hn : 36524 * c + 1461 * q + 365 * k + t = 36524 * c + r := by omega
  rw [hn]
  by_cases hlast : r = 36524
  · have hc3 : c = 3 := by omega
    omega
  · have hbound : 0 ≤ r ∧ r ≤ 36523 := by omega
    clear hr hn
    have hcentury : (36524 * c + r) / 36524 = c := by omega
    have hera : (36524 * c + r) / 146096 = 0 := by omega
    omega

/-- The year of an era day, from its number. -/
theorem yearOfEra_eq (e : EraDay) :
    (e.number - e.number / 1460 + e.number / 36524 - e.number / 146096) / 365 = e.yearOfEra := by
  have hcentury := e.century_eq
  obtain ⟨c, q, k, t, hc, hq, hk, ht, hleap⟩ := e
  simp only [number, yearOfEra] at hcentury ⊢
  generalize hn : 36524 * c + 1461 * q + 365 * k + t = n at hcentury ⊢
  -- the leap days before the day, but for one that the last day of a year counts
  have hdays : n / 1460 = 25 * c + q + (24 * c + q + 365 * k + t) / 1460 := by omega
  have hlast : (24 * c + q + 365 * k + t) / 1460 = 0 ∧ t ≤ 364 ∨
      (24 * c + q + 365 * k + t) / 1460 = 1 ∧ 1 ≤ t := by omega
  omega

/-- The days of the era before the year of an era day. -/
theorem number_sub_day (e : EraDay) :
    365 * e.yearOfEra + e.yearOfEra / 4 - e.yearOfEra / 100 = e.number - e.day := by
  obtain ⟨c, q, k, t, hc, hq, hk, ht, hleap⟩ := e
  simp only [number, yearOfEra]
  have hfour : (100 * c + 4 * q + k) / 4 = 25 * c + q := by omega
  have hhundred : (100 * c + 4 * q + k) / 100 = c := by omega
  omega

end EraDay

/-- The number of whole months of the year before the day, counted from March. -/
def EraDay.month (e : EraDay) : Int := (5 * e.day + 2) / 153

/-- A year has twelve months, and the day lies in the month of its number. -/
theorem EraDay.month_range (e : EraDay) :
    (0 ≤ e.month ∧ e.month ≤ 11) ∧ (153 * e.month + 2) / 5 ≤ e.day ∧
      e.day < (153 * (e.month + 1) + 2) / 5 := by
  have := e.day_range
  simp only [month]
  omega

/-- The name of a month counted from March. -/
def nameOfMonth (m : Int) : Nat := (if m < 10 then m + 3 else m - 9).toNat

/-- The date of a day of an era. -/
theorem civilOf_eq (era : Int) (e : EraDay) :
    civilOf (146097 * era + e.number - 719468) =
      { year := e.yearOfEra + era * 400 + if e.month < 10 then 0 else 1
        month := nameOfMonth e.month
        day := (e.day - (153 * e.month + 2) / 5 + 1).toNat } := by
  have hrange := e.number_range
  have hshift : 146097 * era + e.number - 719468 + 719468 = 146097 * era + e.number := by omega
  have hera : (146097 * era + e.number) / 146097 = era := by omega
  have hnumber : (146097 * era + e.number) % 146097 = e.number := by omega
  have hday : e.number - (365 * e.yearOfEra + e.yearOfEra / 4 - e.yearOfEra / 100) = e.day := by
    have := e.number_sub_day
    omega
  have hmonth : (5 * e.day + 2) / 153 = e.month := rfl
  have hbounds := e.month_range.1
  simp only [civilOf, hshift, hera, hnumber, e.yearOfEra_eq, hday, hmonth, nameOfMonth,
    Civil.mk.injEq, and_true]
  split <;> split <;> omega

/-- Every count is that of a day of some era. -/
theorem exists_eraDay (n : Int) :
    ∃ (era : Int) (e : EraDay), n = 146097 * era + e.number - 719468 := by
  obtain ⟨e, he⟩ := EraDay.exists_number_eq (n := (n + 719468) % 146097) (by omega)
  exact ⟨(n + 719468) / 146097, e, by omega⟩

/-- From March to January the lengths of the months follow one line. -/
theorem daysInMonth_nameOfMonth (year : Int) {m : Int} (hm : 0 ≤ m ∧ m ≤ 10) :
    (daysInMonth year (nameOfMonth m) : Int) = (153 * (m + 1) + 2) / 5 - (153 * m + 2) / 5 := by
  have hcases : m = 0 ∨ m = 1 ∨ m = 2 ∨ m = 3 ∨ m = 4 ∨ m = 5 ∨ m = 6 ∨ m = 7 ∨ m = 8 ∨ m = 9 ∨
      m = 10 := by omega
  rcases hcases with rfl | rfl | rfl | rfl | rfl | rfl | rfl | rfl | rfl | rfl | rfl <;> rfl

/-- No month is longer than 31 days. -/
theorem daysInMonth_le {year : Int} {month : Nat} : daysInMonth year month ≤ 31 := by
  unfold daysInMonth
  repeat' split
  all_goals omega

/-- The last day of a leap year is a 29th of February. -/
theorem isLeap_of_leap_day (era : Int) (e : EraDay) (h : e.day = 365) :
    isLeap (e.yearOfEra + era * 400 + 1) = true := by
  obtain ⟨hyear, hcycle⟩ := e.leap_day h
  have := e.cycle_range
  have := e.century_range
  have hfour : (e.yearOfEra + era * 400 + 1) % 4 = 0 := by
    simp only [EraDay.yearOfEra]
    omega
  have hcentury : (e.yearOfEra + era * 400 + 1) % 100 ≠ 0 ∨
      (e.yearOfEra + era * 400 + 1) % 400 = 0 := by
    simp only [EraDay.yearOfEra]
    omega
  simpa [isLeap, hfour] using hcentury

/-- **The date of a count is a date.** -/
theorem isValid_civilOf (n : Int) : (civilOf n).IsValid := by
  obtain ⟨era, e, rfl⟩ := exists_eraDay n
  obtain ⟨⟨hfirst, hlast⟩, hfrom, hto⟩ := e.month_range
  have hname : 1 ≤ nameOfMonth e.month ∧ nameOfMonth e.month ≤ 12 := by
    simp only [nameOfMonth]
    split <;> omega
  rw [civilOf_eq]
  refine ⟨hname.1, hname.2, ?_, ?_⟩
  · show 1 ≤ (e.day - (153 * e.month + 2) / 5 + 1).toNat
    omega
  show (e.day - (153 * e.month + 2) / 5 + 1).toNat ≤
    daysInMonth (e.yearOfEra + era * 400 + if e.month < 10 then 0 else 1) (nameOfMonth e.month)
  by_cases hfebruary : e.month ≤ 10
  · have := daysInMonth_nameOfMonth (e.yearOfEra + era * 400 + if e.month < 10 then 0 else 1)
      ⟨hfirst, hfebruary⟩
    omega
  · have hday := e.day_range
    have heleven : e.month = 11 := by omega
    have hlength : daysInMonth (e.yearOfEra + era * 400 + if e.month < 10 then 0 else 1)
        (nameOfMonth e.month) = if isLeap (e.yearOfEra + era * 400 + 1) then 29 else 28 := by
      rw [heleven]
      rfl
    rw [hlength, heleven]
    by_cases hlastDay : e.day = 365
    · rw [if_pos (isLeap_of_leap_day era e hlastDay), hlastDay]
      decide
    · split <;> omega

/-- **Counting the days to the date of a count gives the count back.** -/
theorem countDays_civilOf (n : Int) : countDays (civilOf n) = n := by
  obtain ⟨era, e, rfl⟩ := exists_eraDay n
  obtain ⟨⟨hfirst, hlast⟩, hfrom, hto⟩ := e.month_range
  have hbefore := e.number_sub_day
  have hyears := e.yearOfEra_range
  have hera : (e.yearOfEra + era * 400) / 400 = era := by omega
  have hofEra : (e.yearOfEra + era * 400) % 400 = e.yearOfEra := by omega
  rw [civilOf_eq]
  by_cases hspring : e.month < 10
  · have hmonth : ¬ (e.month + 3).toNat ≤ 2 := by omega
    have hback : ((e.month + 3).toNat : Int) - 3 = e.month := by omega
    simp only [countDays, nameOfMonth, hspring, if_true, hmonth, if_false, Int.add_zero, hera,
      hofEra, hback]
    omega
  · have hmonth : (e.month - 9).toNat ≤ 2 := by omega
    have hback : ((e.month - 9).toNat : Int) + 9 = e.month := by omega
    have hyear : e.yearOfEra + era * 400 + 1 - 1 = e.yearOfEra + era * 400 := by omega
    simp only [countDays, nameOfMonth, hspring, hmonth, if_true, if_false, hyear, hera, hofEra,
      hback]
    omega

/-- Days are told by their counts. -/
theorem Day.eq_iff_number {a b : Day} : a = b ↔ a.number = b.number := by
  cases a
  cases b
  simp

/-- The date of a day is a date. -/
theorem Day.isValid_civil (d : Day) : d.civil.IsValid := isValid_civilOf d.number

/-- **The day of the date of a day is that day.** -/
theorem Day.ofCivil?_civil (d : Day) : Day.ofCivil? d.civil = some d := by
  unfold Day.ofCivil? Day.civil
  rw [if_pos (isValid_civilOf d.number), countDays_civilOf]
  exact dif_pos d.inRange

/-- The years of the calendar have at most six digits. -/
theorem Day.natAbs_civil_year_lt (d : Day) : d.civil.year.natAbs < 1000000 := by
  obtain ⟨n, hfirst, hlast⟩ := d
  simp only [firstNumber, lastNumber] at hfirst hlast
  obtain ⟨era, e, rfl⟩ := exists_eraDay n
  have hnumber := e.number_range
  have hera : -1000 ≤ era ∧ era ≤ 1000 := by omega
  have hyears := e.yearOfEra_range
  simp only [Day.civil, civilOf_eq]
  split <;> omega

/-- The year of a date, where years begin in March. -/
def Civil.marchYear (c : Civil) : Int := if c.month ≤ 2 then c.year - 1 else c.year

/-- The month of a date, counted from March. -/
def Civil.marchMonth (c : Civil) : Int := if c.month ≤ 2 then c.month + 9 else c.month - 3

/-- The days before a year that begins in March. -/
def daysBefore (year : Int) : Int := 365 * year + year / 4 - year / 100 + year / 400

/-- The days to a date, by year, month and day of the month. -/
theorem countDays_eq (c : Civil) :
    countDays c = daysBefore c.marchYear + (153 * c.marchMonth + 2) / 5 + c.day - 719469 := by
  simp only [countDays, daysBefore, Civil.marchYear, Civil.marchMonth]
  generalize (if c.month ≤ 2 then c.year - 1 else c.year) = year
  generalize (if c.month ≤ 2 then (c.month : Int) + 9 else c.month - 3) = month
  obtain ⟨era, ofEra, rfl, hofEra⟩ : ∃ era ofEra : Int, year = 400 * era + ofEra ∧
      (0 ≤ ofEra ∧ ofEra ≤ 399) := ⟨year / 400, year % 400, by omega, by omega⟩
  have hfour : (400 * era + ofEra) / 4 = 100 * era + ofEra / 4 := by omega
  have hhundred : (400 * era + ofEra) / 100 = 4 * era + ofEra / 100 := by omega
  have hera : (400 * era + ofEra) / 400 = era := by omega
  have hrest : (400 * era + ofEra) % 400 = ofEra := by omega
  rw [hfour, hhundred, hera, hrest]
  omega

/-- A leap year has a day more than others; it is the one whose February ends a
year that begins in March. -/
theorem daysBefore_add_one (year : Int) :
    daysBefore (year + 1) = daysBefore year + if isLeap (year + 1) then 366 else 365 := by
  have hleap : isLeap (year + 1) = true ↔
      (year + 1) % 4 = 0 ∧ ((year + 1) % 100 ≠ 0 ∨ (year + 1) % 400 = 0) := by
    simp [isLeap]
  simp only [daysBefore, hleap]
  split <;> omega

/-- A date of the calendar lies within its month, and in a year that begins in
March before the next one. -/
theorem Civil.IsValid.bounds {c : Civil} (h : c.IsValid) :
    (0 ≤ c.marchMonth ∧ c.marchMonth ≤ 11) ∧
      (c.marchMonth ≤ 10 →
        (153 * c.marchMonth + 2) / 5 + c.day ≤ (153 * (c.marchMonth + 1) + 2) / 5) ∧
      daysBefore c.marchYear + (153 * c.marchMonth + 2) / 5 + c.day ≤
        daysBefore (c.marchYear + 1) := by
  obtain ⟨hmonthFirst, hmonthLast, hdayFirst, hdayLast⟩ := h
  have hrange : 0 ≤ c.marchMonth ∧ c.marchMonth ≤ 11 := by
    simp only [Civil.marchMonth]
    split <;> omega
  have hname : nameOfMonth c.marchMonth = c.month := by
    simp only [Civil.marchMonth, nameOfMonth]
    split <;> split <;> omega
  have hlength : c.marchMonth ≤ 10 →
      (153 * c.marchMonth + 2) / 5 + c.day ≤ (153 * (c.marchMonth + 1) + 2) / 5 := by
    intro hten
    have := daysInMonth_nameOfMonth c.year ⟨hrange.1, hten⟩
    rw [hname] at this
    omega
  refine ⟨hrange, hlength, ?_⟩
  rw [daysBefore_add_one]
  by_cases hten : c.marchMonth ≤ 10
  · have := hlength hten
    split <;> omega
  · have hfebruary : c.month = 2 ∧ c.marchMonth = 11 ∧ c.marchYear + 1 = c.year := by
      simp only [Civil.marchMonth] at hten
      simp only [Civil.marchMonth, Civil.marchYear]
      split at hten <;> omega
    obtain ⟨hmonth, heleven, hyear⟩ := hfebruary
    rw [hmonth] at hdayLast
    simp only [daysInMonth, if_true] at hdayLast
    rw [hyear, heleven]
    split <;> simp_all <;> omega

/-- One date comes before another: by year, then by month, then by day. -/
def Civil.Before (a b : Civil) : Prop :=
  a.year < b.year ∨ a.year = b.year ∧ (a.month < b.month ∨ a.month = b.month ∧ a.day < b.day)

/-- **The order of dates is that of the days counted to them.** -/
theorem countDays_lt_of_before {a b : Civil} (ha : a.IsValid) (hb : b.IsValid)
    (h : a.Before b) : countDays a < countDays b := by
  obtain ⟨haMonth, haLength, haYear⟩ := ha.bounds
  obtain ⟨hbMonth, _, _⟩ := hb.bounds
  obtain ⟨_, _, haDay, _⟩ := ha
  obtain ⟨_, _, hbDay, _⟩ := hb
  have hlex : a.marchYear < b.marchYear ∨ a.marchYear = b.marchYear ∧
      (a.marchMonth < b.marchMonth ∨ a.marchMonth = b.marchMonth ∧ a.day < b.day) := by
    unfold Civil.Before at h
    simp only [Civil.marchYear, Civil.marchMonth]
    split <;> split <;> omega
  rw [countDays_eq, countDays_eq]
  rcases hlex with hyear | ⟨hyear, hmonth | ⟨hmonth, hday⟩⟩
  · have hmono : daysBefore (a.marchYear + 1) ≤ daysBefore b.marchYear := by
      simp only [daysBefore]
      omega
    omega
  · rw [hyear]
    omega
  · rw [hyear, hmonth]
    omega

/-- A date does not come before itself, and of two dates one comes first. -/
theorem Civil.before_trichotomy (a b : Civil) : a.Before b ∨ a = b ∨ b.Before a := by
  obtain ⟨ya, ma, da⟩ := a
  obtain ⟨yb, mb, db⟩ := b
  simp only [Civil.Before, Civil.mk.injEq]
  omega

/-- **A later day has a later date.** -/
theorem Day.lt_iff_civil {a b : Day} : a < b ↔ a.civil.Before b.civil := by
  have hlt : ∀ {a b : Day}, a.civil.Before b.civil → a < b := by
    intro a b h
    have hdays := countDays_lt_of_before (isValid_civilOf a.number) (isValid_civilOf b.number) h
    rwa [countDays_civilOf, countDays_civilOf] at hdays
  constructor
  · intro h
    rcases a.civil.before_trichotomy b.civil with hab | heq | hba
    · exact hab
    · have hday : some a = some b := by rw [← ofCivil?_civil, ← ofCivil?_civil b, heq]
      cases hday
      exact absurd h (Int.lt_irrefl _)
    · exact absurd (hlt hba) (Int.lt_asymm h)
  · exact hlt

section Succession

/-- The date after a date: the next day of its month, or the first of the next month, or of
the next year. -/
def Civil.next (c : Civil) : Civil :=
  if c.day < daysInMonth c.year c.month then ⟨c.year, c.month, c.day + 1⟩
  else if c.month < 12 then ⟨c.year, c.month + 1, 1⟩
  else ⟨c.year + 1, 1, 1⟩

/-- The date so many days after a date. -/
def Civil.after (c : Civil) : Nat → Civil
  | 0 => c
  | days + 1 => (c.after days).next

/-- From one date to another it is so many days, back in time if they are fewer than none. -/
def Civil.IsDaysTo (a b : Civil) (days : Int) : Prop := a.after days.toNat = b.after (-days).toNat

/-- Dates to which as many days are counted are one date. -/
theorem eq_of_countDays_eq {a b : Civil} (ha : a.IsValid) (hb : b.IsValid)
    (h : countDays a = countDays b) : a = b := by
  rcases a.before_trichotomy b with hab | heq | hba
  · exact absurd h (Int.ne_of_lt (countDays_lt_of_before ha hb hab))
  · exact heq
  · exact absurd h.symm (Int.ne_of_lt (countDays_lt_of_before hb ha hba))

/-- After a date of the calendar comes a date of the calendar. -/
theorem Civil.IsValid.next {c : Civil} (h : c.IsValid) : c.next.IsValid := by
  obtain ⟨hmonthFirst, hmonthLast, hdayFirst, hdayLast⟩ := h
  have hfirst : ∀ year month, 1 ≤ daysInMonth year month := by
    intro year month
    unfold daysInMonth
    repeat' split
    all_goals omega
  unfold Civil.next
  split
  · next hday => exact ⟨hmonthFirst, hmonthLast, Nat.le_add_left _ _, hday⟩
  split
  · next hmonth => exact ⟨Nat.le_add_left _ _, hmonth, Nat.le_refl 1, hfirst _ _⟩
  · exact ⟨Nat.le_refl 1, Nat.le_add_left 1 11, Nat.le_refl 1, hfirst _ _⟩

/-- **A day more is counted** to the date after a date. -/
theorem countDays_next {c : Civil} (h : c.IsValid) : countDays c.next = countDays c + 1 := by
  obtain ⟨year, month, day⟩ := c
  obtain ⟨hmonthFirst, hmonthLast, -, hdayLast⟩ := h
  simp only at hmonthFirst hmonthLast hdayLast
  rw [countDays_eq, countDays_eq]
  simp only [Civil.next]
  split
  · simp only [Civil.marchYear, Civil.marchMonth]
    omega
  next hend =>
  obtain rfl : day = daysInMonth year month := by omega
  by_cases hfebruary : month = 2
  · -- the year that begins in March ends, with its leap day if it has one
    subst hfebruary
    have hyear := daysBefore_add_one (year - 1)
    rw [Int.sub_add_cancel] at hyear
    have hlength : daysInMonth year 2 = if isLeap year then 29 else 28 := rfl
    simp only [Civil.marchYear, Civil.marchMonth, hlength]
    split at hyear <;> simp_all <;> omega
  by_cases hjanuary : month = 1
  · subst hjanuary
    have hlength : daysInMonth year 1 = 31 := rfl
    simp only [Civil.marchYear, Civil.marchMonth, hlength, if_pos (Nat.le_refl 2),
      if_pos (show 1 ≤ 2 by decide), if_pos (show 1 < 12 by decide), Nat.reduceAdd]
    omega
  · -- the length of the month is the step of the line to the month after it
    have hmarch : ¬ month ≤ 2 := by omega
    have hname : nameOfMonth (month - 3) = month := by
      simp only [nameOfMonth]
      split <;> omega
    have hlength := daysInMonth_nameOfMonth year (m := month - 3) (by omega)
    rw [hname] at hlength
    split
    · next hmonth =>
      have hnext : ¬ month + 1 ≤ 2 := by omega
      simp only [Civil.marchYear, Civil.marchMonth, if_neg hmarch, if_neg hnext]
      omega
    · next hmonth =>
      obtain rfl : month = 12 := by omega
      simp only [Civil.marchYear, Civil.marchMonth, if_neg hmarch, if_pos (show 1 ≤ 2 by decide),
        Int.add_sub_cancel]
      omega

/-- **The dates of successive counts** follow one another. -/
theorem civilOf_add_one (n : Int) : civilOf (n + 1) = (civilOf n).next := by
  have hvalid := isValid_civilOf n
  refine eq_of_countDays_eq (isValid_civilOf (n + 1)) hvalid.next ?_
  rw [countDays_civilOf, countDays_next hvalid, countDays_civilOf]

/-- So many days after the date of a day is the date so many days on. -/
theorem after_civilOf (n : Int) (days : Nat) : (civilOf n).after days = civilOf (n + days) := by
  induction days with
  | zero => simp [Civil.after]
  | succ days ih =>
    rw [Civil.after, ih, ← civilOf_add_one]
    congr 1
    omega

/-- **The days that are counted** to a date are those from 1970-01-01. -/
theorem isDaysTo_civilOf (n : Int) : Civil.IsDaysTo ⟨1970, 1, 1⟩ (civilOf n) n := by
  have hfirst : (⟨1970, 1, 1⟩ : Civil) = civilOf 0 := by decide
  unfold Civil.IsDaysTo
  rw [hfirst, after_civilOf, after_civilOf]
  congr 1
  omega

end Succession

section Range

variable {a b c : Civil}

/-- Dates are in the order of their days. -/
theorem countDays_lt_iff (ha : a.IsValid) (hb : b.IsValid) :
    countDays a < countDays b ↔ a.Before b := by
  refine ⟨fun h => ?_, countDays_lt_of_before ha hb⟩
  rcases a.before_trichotomy b with hab | rfl | hba
  · exact hab
  · exact absurd h (Int.lt_irrefl _)
  · exact absurd h (Int.lt_asymm (countDays_lt_of_before hb ha hba))

/-- **The date of the days** counted to a date is that date. -/
theorem civilOf_countDays (h : c.IsValid) : civilOf (countDays c) = c :=
  eq_of_countDays_eq (isValid_civilOf _) h (countDays_civilOf _)

/-- A date that comes neither before one date nor after another. -/
def Civil.Within (first last c : Civil) : Prop := ¬ c.Before first ∧ ¬ last.Before c

/-- **The days of the calendar** are those of the dates from -262143-01-01 to
+262142-12-31. -/
theorem Day.exists_civil_iff :
    (∃ d : Day, d.civil = c) ↔
      c.IsValid ∧ Civil.Within ⟨-262143, 1, 1⟩ ⟨262142, 12, 31⟩ c := by
  have hfirst : countDays ⟨-262143, 1, 1⟩ = firstNumber := by decide
  have hlast : countDays ⟨262142, 12, 31⟩ = lastNumber := by decide
  have hwithin (hc : c.IsValid) : Civil.Within ⟨-262143, 1, 1⟩ ⟨262142, 12, 31⟩ c ↔
      firstNumber ≤ countDays c ∧ countDays c ≤ lastNumber := by
    rw [Civil.Within, ← countDays_lt_iff hc (by decide), ← countDays_lt_iff (by decide) hc, hfirst,
      hlast, Int.not_lt, Int.not_lt]
  constructor
  · rintro ⟨d, rfl⟩
    refine ⟨d.isValid_civil, (hwithin d.isValid_civil).2 ?_⟩
    rw [Day.civil, countDays_civilOf]
    exact d.inRange
  · rintro ⟨hc, hrange⟩
    exact ⟨⟨countDays c, (hwithin hc).1 hrange⟩, civilOf_countDays hc⟩

/-- A day lies within two others if its date does. -/
theorem Day.within_iff (first last d : Day) :
    Civil.Within first.civil last.civil d.civil ↔ first ≤ d ∧ d ≤ last := by
  rw [Civil.Within, ← Day.lt_iff_civil, ← Day.lt_iff_civil]
  exact and_congr Int.not_lt Int.not_lt

end Range

end PeerWatch.Calendar
