import PeerWatch.Proofs.DayRows
import PeerWatch.Proofs.Calendar.Dates

/-!
# Where an outcome lands

An outcome goes to the row of the date it was observed on and to the minute of
that day, and both together are the minute of universal time: counted from
1970-01-01, the minutes before the date and the minute of the day make up the
whole minutes since then, before 1970 as after it.  What is put there is packed
out of two numbers that do not run into each other.

* `Calendar.Instant.minuteOfDay_add`, `same_minute_iff` — minutes and days;
* `Slot.Reading.pack`, `SlotWrite.value_eq_iff` — values and what they show;
* `SlotWrite.outcome_lands_in_its_minute` — the slot of an outcome.
-/

namespace PeerWatch

open Calendar

section Minutes

namespace Calendar.Instant

/-- The minutes of the days before and the minute of the day are the minutes since 1970. -/
theorem minuteOfDay_add (t : Instant) : 1440 * t.day.number + t.minuteOfDay = t.seconds / 60 := by
  simp only [day, minuteOfDay, secondsPerDay]
  omega

/-- Moments of one minute of one day are those of one minute. -/
theorem same_minute_iff (a b : Instant) :
    a.day = b.day ∧ a.minuteOfDay = b.minuteOfDay ↔ a.seconds / 60 = b.seconds / 60 := by
  have hofA := a.minuteOfDay_lt
  have hofB := b.minuteOfDay_lt
  simp only [minutesPerDay] at hofA hofB
  rw [Day.eq_iff_number, ← a.minuteOfDay_add, ← b.minuteOfDay_add]
  omega

end Calendar.Instant

end Minutes

section Values

/-- The span of four seconds of its minute that an outcome was observed in. -/
def Outcome.hint (o : Outcome) : Nat := (o.capturedAt.seconds % 60 / 4).toNat

/-- The latency of an outcome, kept between the least and the greatest that a slot shows. -/
def Outcome.keptLatency (o : Outcome) : Nat := min (max o.latency.toNat 2) 1999

/-- What is shown of an outcome: a latency of a success, a failure otherwise. -/
theorem Outcome.shown_eq (o : Outcome) :
    o.shown = if o.isSuccess then .latency o.hint o.keptLatency else .failed o.hint := by
  have hhint : o.capturedAt.secondOfMinute / 4 = o.hint := by
    simp only [Instant.secondOfMinute, Outcome.hint]
    omega
  rw [Outcome.shown, hhint]
  rfl

/-- The value that shows what is to be shown. -/
def Slot.Reading.pack : Slot.Reading → UInt16
  | .noData => 0
  | .failed hint => Slot.encode hint Slot.failedBucket
  | .latency hint ms => Slot.encode hint ms

/-- An outcome is packed from what it shows, and from nothing else. -/
theorem SlotWrite.value_ofOutcome (owner : OwnerId) (o : Outcome) :
    (SlotWrite.ofOutcome owner o).value = o.shown.pack := by
  simp only [SlotWrite.ofOutcome, Outcome.shown]
  split
  · rw [Slot.ofLatency, Slot.hintOf_eq]
    rfl
  · rw [Slot.ofFailure, Slot.hintOf_eq]
    rfl

/-- Outcomes have one value if they show the same. -/
theorem SlotWrite.value_eq_iff (owner owner' : OwnerId) (o o' : Outcome) :
    (SlotWrite.ofOutcome owner o).value = (SlotWrite.ofOutcome owner' o').value ↔
      o.shown = o'.shown := by
  constructor
  · intro hvalue
    rw [← SlotWrite.read_ofOutcome owner o, hvalue, SlotWrite.read_ofOutcome]
  · intro hshown
    rw [SlotWrite.value_ofOutcome, SlotWrite.value_ofOutcome, hshown]

/-- Outcomes show the same if they ended alike, in the same span of their minutes, and
after about the same time if they succeeded. -/
theorem Outcome.shown_eq_iff (o o' : Outcome) :
    o.shown = o'.shown ↔ o.isSuccess = o'.isSuccess ∧ o.hint = o'.hint ∧
      (o.isSuccess → o.keptLatency = o'.keptLatency) := by
  rw [o.shown_eq, o'.shown_eq]
  cases o.isSuccess <;> cases o'.isSuccess <;> simp

end Values

/-- **An outcome lands in its minute**: it goes to the row of its target, its owner and its
date, where the minutes before the date, so many days from 1970-01-01, and the minute of the
day are the whole minutes since 1970, whether the moment is before 1970 or in a leap second.
What stands there then shows a failure, or a success with the latency kept within bounds, and
when in the minute it was; it never shows that nothing was recorded.  Outcomes of one target
go to one slot if they were observed in one minute, and two of them have one value if they
ended alike, in the same span of their minutes and, for successes, after the same time within
those bounds. -/
theorem SlotWrite.outcome_lands_in_its_minute (owner : OwnerId) (o : Outcome) :
    let w := SlotWrite.ofOutcome owner o
    let date := w.key.day.civil
    (w.key.target = o.target ∧ w.key.owner = owner ∧ date.IsValid) ∧
    Civil.IsDaysTo ⟨1970, 1, 1⟩ date (countDays date) ∧
    1440 * countDays date + w.minute = o.capturedAt.seconds / 60 ∧ w.minute < 1440 ∧
    Slot.read w.value =
      (if o.isSuccess then .latency o.hint o.keptLatency else .failed o.hint) ∧
    Slot.read w.value ≠ .noData ∧
    ∀ o' : Outcome,
      let w' := SlotWrite.ofOutcome owner o'
      (w.key = w'.key ∧ w.minute = w'.minute ↔
        o.target = o'.target ∧ o.capturedAt.seconds / 60 = o'.capturedAt.seconds / 60) ∧
      (w.value = w'.value ↔ o.isSuccess = o'.isSuccess ∧ o.hint = o'.hint ∧
        (o.isSuccess → o.keptLatency = o'.keptLatency)) := by
  intro w date
  have hnumber : countDays date = o.capturedAt.day.number := countDays_civilOf _
  have hread : Slot.read w.value = o.shown := SlotWrite.read_ofOutcome owner o
  refine ⟨⟨rfl, rfl, Day.isValid_civil _⟩, ?_, ?_, o.capturedAt.minuteOfDay_lt, ?_, ?_, ?_⟩
  · rw [hnumber]
    exact isDaysTo_civilOf _
  · rw [hnumber]
    exact o.capturedAt.minuteOfDay_add
  · rw [hread, o.shown_eq]
  · rw [hread]
    exact o.shown_ne_noData
  · intro o' w'
    have hkey : w.key = w'.key ↔ o.target = o'.target ∧ o.capturedAt.day = o'.capturedAt.day := by
      simp [w, w', SlotWrite.ofOutcome]
    refine ⟨?_, ?_⟩
    · rw [hkey, and_assoc]
      exact and_congr_right fun _ => Instant.same_minute_iff _ _
    · rw [SlotWrite.value_eq_iff, Outcome.shown_eq_iff]

/-- A leap second before 1970 is the last second of the last minute of 1969. -/
example :
    let o : Outcome := ⟨default, ⟨-1, 1999999999, by decide, by decide⟩, 0, none⟩
    let w := SlotWrite.ofOutcome .nil o
    w.key.day.civil = ⟨1969, 12, 31⟩ ∧ w.minute = 1439 ∧ Slot.read w.value = .latency 14 2 := by
  decide

end PeerWatch
