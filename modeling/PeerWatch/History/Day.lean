import PeerWatch.Target
import PeerWatch.Owner
import PeerWatch.Slot
import PeerWatch.LittleEndian

/-!
# The history of a day

What one owner saw of one target on one day: a slot for each of the 1440
minutes.  A row is stored as the 2880 bytes of its slots.

* `HistoryKey` — target, owner and day, in that order of precedence;
* `DayHistory` — the slots under a key;
* `toBlob`, `ofBlob?` — the stored bytes.
-/

namespace PeerWatch

open Calendar

/-- A day has as many minutes, and as many slots. -/
def minutesPerDay : Nat := 1440

/-- Which day of which target, seen by whom. -/
structure HistoryKey where
  target : TargetId
  owner : OwnerId
  day : Day
deriving DecidableEq, Inhabited

namespace HistoryKey

instance : Ord HistoryKey :=
  ⟨compareLex (compareOn (·.target.bytes))
    (compareLex (compareOn (·.owner.bytes)) (compareOn (·.day.number)))⟩

instance : Std.TransOrd HistoryKey :=
  inferInstanceAs (Std.TransCmp (compareLex (compareOn fun k : HistoryKey => k.target.bytes)
    (compareLex (compareOn fun k : HistoryKey => k.owner.bytes)
      (compareOn fun k : HistoryKey => k.day.number))))

instance : Std.LawfulEqOrd HistoryKey where
  compare_self := Std.ReflCmp.compare_self
  eq_of_compare := by
    intro a b h
    obtain ⟨⟨ta, hta⟩, ⟨oa, hoa⟩, ⟨da, hda⟩⟩ := a
    obtain ⟨⟨tb, htb⟩, ⟨ob, hob⟩, ⟨db, hdb⟩⟩ := b
    have h : (compare ta tb).then ((compare oa ob).then (compare da db)) = .eq := h
    obtain ⟨h₁, h⟩ := Ordering.then_eq_eq.1 h
    obtain ⟨h₂, h₃⟩ := Ordering.then_eq_eq.1 h
    have h₁ : ta = tb := Std.LawfulEqOrd.eq_of_compare h₁
    have h₂ : oa = ob := Std.LawfulEqOrd.eq_of_compare h₂
    have h₃ : da = db := Std.LawfulEqOrd.eq_of_compare h₃
    subst h₁ h₂ h₃
    rfl

end HistoryKey

/-- The slots of a day, minute by minute. -/
abbrev DaySlots := Vector UInt16 minutesPerDay

/-- The slots of a list, if there are as many as minutes. -/
def DaySlots.ofList? (slots : List UInt16) : Option DaySlots :=
  if h : slots.length = minutesPerDay then
    some ⟨slots.toArray, by rw [List.size_toArray]; exact h⟩
  else none

/-- What was recorded under a key. -/
structure DayHistory where
  key : HistoryKey
  slots : DaySlots
deriving DecidableEq

namespace DayHistory

/-- A day of which nothing was recorded. -/
def empty (key : HistoryKey) : DayHistory := ⟨key, Vector.replicate minutesPerDay 0⟩

instance : Inhabited DayHistory := ⟨empty default⟩

/-- A value written into a minute; a minute no day has changes nothing. -/
def set (row : DayHistory) (minute : Nat) (value : UInt16) : DayHistory :=
  { row with slots := row.slots.setIfInBounds minute value }

/-- A day of which one minute was recorded. -/
def single (key : HistoryKey) (minute : Nat) (value : UInt16) : DayHistory :=
  (empty key).set minute value

/-- The value of a minute; 0 for a minute no day has. -/
def get (row : DayHistory) (minute : Nat) : UInt16 := (row.slots[minute]?).getD 0

/-- What the slot of a minute shows. -/
def reading (row : DayHistory) (minute : Nat) : Slot.Reading := Slot.read (row.get minute)

/-- The row with the given slots, if there are as many as minutes. -/
def ofSlots? (key : HistoryKey) (slots : List UInt16) : Option DayHistory :=
  (DaySlots.ofList? slots).map fun slots => ⟨key, slots⟩

/-- The slots that are not 0, with their minutes, in ascending order. -/
def marks (row : DayHistory) : List (Nat × UInt16) :=
  row.slots.toList.zipIdx.filterMap fun (value, minute) =>
    if value = 0 then none else some (minute, value)

/-- How many slots are not 0. -/
def filled (row : DayHistory) : Nat := row.marks.length

/-- The bytes of all slots, two for each. -/
def toBlob (row : DayHistory) : List UInt8 := LittleEndian.ofWords16 row.slots.toList

/-- The row with the given stored bytes, if there are 2880 of them. -/
def ofBlob? (key : HistoryKey) (blob : List UInt8) : Option DayHistory :=
  (LittleEndian.toWords16? blob).bind (ofSlots? key)

end DayHistory

end PeerWatch
