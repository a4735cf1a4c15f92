import PeerWatch.Proofs.Calendar.Dates
import PeerWatch.Proofs.Exports

/-!
# Days and the seconds they begin at

A record tells its day by the second that the day begins at.  A 32-bit word can do so for
the days from 1970-01-01 to 2106-02-07, and each of these has a word of its own, which grows
with the date and gives the day back.  Whatever word stands in a record, it lies in one of
these days, and what has passed of the day is left out when the word of the day is taken.

* `Export.exists_dayTimestamp_iff` — the days that have a word, by their dates;
* `Export.exists_after` — as many days after 1970-01-01 as the word tells;
* `Export.before_iff_lt` — the order of dates and of words;
* `Export.Record.day_of_moment`, `Export.Record.day_of_dayTimestamp`,
  `Export.Record.dayTimestamp_day` — the day that a word lies in;
* `Export.day_timestamps_are_exact`.
-/

namespace PeerWatch.Export

open Calendar

variable {day day' : Day} {timestamp timestamp' : UInt32}

/-- **A day has a timestamp** if its date lies between the first and the last that can be
told. -/
theorem exists_dayTimestamp_iff :
    (∃ timestamp, dayTimestamp day = .ok timestamp) ↔
      Civil.Within ⟨1970, 1, 1⟩ ⟨2106, 2, 7⟩ day.civil := by
  have hfirst : (⟨1970, 1, 1⟩ : Civil) = Day.epoch.civil := by decide
  have hlast : (⟨2106, 2, 7⟩ : Civil) = lastTold.civil := by decide
  rw [hfirst, hlast, Day.within_iff]
  cases htold : isTold day with
  | true => exact ⟨fun _ => of_decide_eq_true htold, fun _ => dayTimestamp_of_isTold htold⟩
  | false =>
      rw [dayTimestamp_of_not_isTold htold]
      exact ⟨(by rintro ⟨_, h⟩; cases h), fun h => absurd h (of_decide_eq_false htold)⟩

/-- A timestamp tells how many days after 1970-01-01 its date is. -/
theorem exists_after (h : dayTimestamp day = .ok timestamp) :
    ∃ days : Nat, Civil.after ⟨1970, 1, 1⟩ days = day.civil ∧
      timestamp.toNat = 86400 * days := by
  have hnumber := dayTimestamp_eq_ok_iff.1 h
  have hfirst : (⟨1970, 1, 1⟩ : Civil) = civilOf 0 := by decide
  refine ⟨day.number.toNat, ?_, by omega⟩
  rw [hfirst, after_civilOf, Day.civil]
  congr 1
  omega

/-- **A later date** has a greater timestamp. -/
theorem before_iff_lt (h : dayTimestamp day = .ok timestamp)
    (h' : dayTimestamp day' = .ok timestamp') :
    day.civil.Before day'.civil ↔ timestamp < timestamp' := by
  have hnumber := dayTimestamp_eq_ok_iff.1 h
  have hnumber' := dayTimestamp_eq_ok_iff.1 h'
  have hlt : day < day' ↔ day.number < day'.number := Iff.rfl
  rw [← Day.lt_iff_civil, hlt, UInt32.lt_iff_toNat_lt]
  omega

namespace Record

/-- The day of a record is the whole days that have passed. -/
theorem number_day (r : Record) : r.day.number = r.timestamp.toNat / 86400 := rfl

/-- There is a moment at any timestamp, and the record shows its day. -/
theorem day_of_moment (r : Record) :
    (Instant.ofParts? r.timestamp.toNat 0).map (·.day) = some r.day := by
  have hlt : r.timestamp.toNat < 4294967296 := r.timestamp.toNat_lt
  have hrange : firstNumber ≤ (r.timestamp.toNat : Int) / secondsPerDay ∧
      (r.timestamp.toNat : Int) / secondsPerDay ≤ lastNumber := by
    unfold firstNumber lastNumber secondsPerDay
    omega
  rw [Instant.ofParts?, dif_pos hrange, dif_pos (by decide)]
  rfl

/-- **A timestamp gives back** the day it was taken of. -/
theorem day_of_dayTimestamp {r : Record} (h : dayTimestamp day = .ok r.timestamp) :
    r.day = day := by
  have hnumber := dayTimestamp_eq_ok_iff.1 h
  rw [Day.eq_iff_number, number_day]
  omega

/-- **The day a timestamp lies in** begins at the second that is left when what has passed of
the day is left out. -/
theorem dayTimestamp_day (r : Record) :
    dayTimestamp r.day = .ok (r.timestamp - r.timestamp % 86400) := by
  have hpassed : r.timestamp % 86400 ≤ r.timestamp := by
    rw [UInt32.le_iff_toNat_le, UInt32.toNat_mod]
    exact Nat.mod_le _ _
  have hday : (86400 : UInt32).toNat = 86400 := rfl
  rw [dayTimestamp_eq_ok_iff, number_day, UInt32.toNat_sub_of_le _ _ hpassed,
    UInt32.toNat_mod, hday]
  omega

end Record

/-- **Days and timestamps are inverse.**  The days are those of the dates from -262143-01-01
to +262142-12-31, each with its own date.  A day has a timestamp if its date lies between
1970-01-01 and 2106-02-07, and is reported itself if not.  The timestamp is 86400 for every
day from 1970-01-01 to the date, grows with the date, and is shown as that day by a record
that has it.  And whatever timestamp a record has, it shows the day of the moment at it, between
these dates, whose timestamp is that of the record less what has passed of the day. -/
theorem day_timestamps_are_exact :
    (∀ c : Civil, (∃ day : Day, day.civil = c) ↔
      c.IsValid ∧ Civil.Within ⟨-262143, 1, 1⟩ ⟨262142, 12, 31⟩ c) ∧
    (∀ day : Day,
      Day.ofCivil? day.civil = some day ∧
      ((∃ timestamp, dayTimestamp day = .ok timestamp) ↔
        Civil.Within ⟨1970, 1, 1⟩ ⟨2106, 2, 7⟩ day.civil) ∧
      (∀ fault, dayTimestamp day = .error fault → fault = .dayOutOfRange day) ∧
      ∀ timestamp, dayTimestamp day = .ok timestamp →
        (∃ days : Nat, Civil.after ⟨1970, 1, 1⟩ days = day.civil ∧
          timestamp.toNat = 86400 * days) ∧
        (∀ slots, Record.day ⟨timestamp, slots⟩ = day) ∧
        ∀ day' timestamp', dayTimestamp day' = .ok timestamp' →
          (day.civil.Before day'.civil ↔ timestamp < timestamp')) ∧
    ∀ r : Record,
      (Instant.ofParts? r.timestamp.toNat 0).map (·.day) = some r.day ∧
      Civil.Within ⟨1970, 1, 1⟩ ⟨2106, 2, 7⟩ r.day.civil ∧
      dayTimestamp r.day = .ok (r.timestamp - r.timestamp % 86400) := by
  refine ⟨fun c => Day.exists_civil_iff, fun day => ⟨day.ofCivil?_civil, exists_dayTimestamp_iff,
    fun fault hfault => ?_, fun timestamp hday => ⟨exists_after hday, fun slots =>
    Record.day_of_dayTimestamp hday, fun day' timestamp' hday' => before_iff_lt hday hday'⟩⟩,
    fun r => ⟨r.day_of_moment, exists_dayTimestamp_iff.1 ⟨_, r.dayTimestamp_day⟩,
    r.dayTimestamp_day⟩⟩
  simp only [dayTimestamp] at hfault
  split at hfault
  · cases hfault
  · exact (Except.error.inj hfault).symm

/-- The year 2100 has no leap day: its 1st of March begins a day after its 28th of February. -/
theorem day_timestamps_are_exact_no_leap_day :
    ∃ (february march : Day) (before after : UInt32),
      february.civil = ⟨2100, 2, 28⟩ ∧ march.civil = ⟨2100, 3, 1⟩ ∧
      dayTimestamp february = .ok before ∧ dayTimestamp march = .ok after ∧
      after = before + 86400 ∧ before < after ∧
      (∀ slots, Record.day ⟨before, slots⟩ = february) ∧
      ∀ slots, dayTimestamp (Record.day ⟨after + 86399, slots⟩) = .ok after := by
  let february : Day := ⟨47540, by decide⟩
  let march : Day := ⟨47541, by decide⟩
  have hfebruary : dayTimestamp february = .ok 4107456000 := dayTimestamp_eq_ok_iff.2 rfl
  have hmarch : dayTimestamp march = .ok 4107542400 := dayTimestamp_eq_ok_iff.2 rfl
  have hpassed : (4107542400 + 86399 - (4107542400 + 86399) % 86400 : UInt32) = 4107542400 := by
    decide
  have hbefore : february < march := by decide
  obtain ⟨_, hdays, hrecords⟩ := day_timestamps_are_exact
  obtain ⟨_, hback, horder⟩ := (hdays february).2.2.2 _ hfebruary
  refine ⟨february, march, 4107456000, 4107542400, by decide, by decide, hfebruary, hmarch,
    by decide, (horder march _ hmarch).1 (Day.lt_iff_civil.1 hbefore), hback, fun slots => ?_⟩
  exact (hrecords ⟨4107542400 + 86399, slots⟩).2.2.trans (congrArg Except.ok hpassed)

end PeerWatch.Export
