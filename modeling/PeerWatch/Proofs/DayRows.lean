import PeerWatch.History.SlotWrite

/-!
# What the row of a day shows

A slot shows what was packed into it, and no observed probe packs into the
value that means that nothing was recorded.  A row shows in each minute what
was written there last, and it is read from its own bytes whatever stands in
it.

* `Outcome.shown`, `SlotWrite.read_ofOutcome` — packing and unpacking;
* `DayHistory.ofBlob?_toBlob`, `isSome_ofBlob?_iff` — storing and reading;
* `DayHistory.get_write`, `readingOf_eq` — writing and showing.
-/

namespace PeerWatch

open Calendar

section Packing

/-- A minute has 60 seconds. -/
theorem Calendar.Instant.secondOfMinute_lt (t : Instant) : t.secondOfMinute < 60 := by
  unfold Instant.secondOfMinute
  omega

/-- Every moment is in one of the minutes of its day. -/
theorem Calendar.Instant.minuteOfDay_lt (t : Instant) : t.minuteOfDay < minutesPerDay := by
  simp only [Instant.minuteOfDay, secondsPerDay, minutesPerDay]
  omega

namespace Slot

/-- The hint of a moment is never cut off. -/
theorem hintOf_eq (t : Instant) : hintOf t = t.secondOfMinute / 4 := by
  have := t.secondOfMinute_lt
  simp only [hintOf, lastHint]
  omega

/-- The number of a value: its hint in steps of 2000, and its bucket. -/
theorem toNat_encode (hint bucket : Nat) :
    (encode hint bucket).toNat = min hint 14 * 2000 + min (max bucket 1) 1999 := by
  simp only [encode, lastHint, lastBucket, bucketSpan, Nat.toUInt16_eq, UInt16.toNat_ofNat']
  omega

/-- What was packed is unpacked. -/
theorem read_encode {hint bucket : Nat} (hhint : hint ≤ 14) (hbucket : 1 ≤ bucket ∧ bucket ≤ 1999) :
    read (encode hint bucket) =
      if bucket = 1 then .failed hint else .latency hint bucket := by
  have hvalue : (encode hint bucket).toNat = hint * 2000 + bucket := by
    rw [toNat_encode]
    omega
  have hmod : (hint * 2000 + bucket) % 2000 = bucket := by omega
  have hdiv : (hint * 2000 + bucket) / 2000 = hint := by omega
  unfold read
  simp only [hvalue, bucketSpan, failedBucket, lastHint, hmod, hdiv]
  rw [if_neg (by omega), if_neg (by omega)]

/-- The value of a failure reads as a failure in the same four seconds. -/
theorem read_ofFailure (t : Instant) : read (ofFailure t) = .failed (t.secondOfMinute / 4) := by
  have := t.secondOfMinute_lt
  rw [ofFailure, hintOf_eq, read_encode (by omega) (by decide)]
  rfl

/-- The value of a latency reads as that latency, as far as a bucket can tell. -/
theorem read_ofLatency (t : Instant) (ms : UInt32) :
    read (ofLatency t ms) = .latency (t.secondOfMinute / 4) (min (max ms.toNat 2) 1999) := by
  have := t.secondOfMinute_lt
  have hbucket : latencyBucket ms = min (max ms.toNat 2) 1999 := rfl
  rw [ofLatency, hintOf_eq, hbucket, read_encode (by omega) (by omega), if_neg (by omega)]

end Slot

/-- What an outcome shows: the quarter of a quarter minute it was observed in,
and its latency, kept within bounds, if it succeeded. -/
def Outcome.shown (o : Outcome) : Slot.Reading :=
  if o.isSuccess then
    .latency (o.capturedAt.secondOfMinute / 4) (min (max o.latency.toNat 2) 1999)
  else .failed (o.capturedAt.secondOfMinute / 4)

/-- An outcome is never shown as nothing. -/
theorem Outcome.shown_ne_noData (o : Outcome) : o.shown ≠ .noData := by
  unfold Outcome.shown
  split <;> simp

/-- The slot of an outcome shows the outcome. -/
theorem SlotWrite.read_ofOutcome (owner : OwnerId) (o : Outcome) :
    Slot.read (SlotWrite.ofOutcome owner o).value = o.shown := by
  simp only [SlotWrite.ofOutcome, Outcome.shown]
  split
  · exact Slot.read_ofLatency ..
  · exact Slot.read_ofFailure ..

end Packing

/-- Rows of one target and one owner stand in the order of their days. -/
theorem HistoryKey.day_lt_of_compare_lt {a b : HistoryKey} (htarget : a.target = b.target)
    (howner : a.owner = b.owner) (h : compare a b = .lt) : a.day < b.day := by
  have h : (compare a.target.bytes b.target.bytes).then
      ((compare a.owner.bytes b.owner.bytes).then (compare a.day.number b.day.number)) = .lt := h
  have hself : ∀ bytes : List UInt8, compare bytes bytes = .eq := fun _ => Std.ReflCmp.compare_self
  rw [htarget, howner, hself, hself] at h
  exact Int.compare_eq_lt.1 h

/-- What lies between two keys that begin alike begins so too. -/
theorem isLE_then_and_swap_then {a b c : Ordering} :
    (a.then b).isLE ∧ (a.swap.then c).isLE ↔ a = .eq ∧ b.isLE ∧ c.isLE := by
  cases a <;> simp

/-- **Between two days** of a target and an owner, in the order of keys, are the keys of this
target and this owner whose days are between. -/
theorem HistoryKey.between_iff {target : TargetId} {owner : OwnerId} {first last : Day}
    {key : HistoryKey} :
    (compare (HistoryKey.mk target owner first) key).isLE ∧
        (compare key (HistoryKey.mk target owner last)).isLE ↔
      key.target = target ∧ key.owner = owner ∧ first ≤ key.day ∧ key.day ≤ last := by
  have hswap : ∀ bytes bytes' : List UInt8, compare bytes' bytes = (compare bytes bytes').swap :=
    fun _ _ => Std.OrientedCmp.eq_swap
  have htarget : compare target.bytes key.target.bytes = .eq ↔ key.target = target := by
    rw [Std.LawfulEqCmp.compare_eq_iff_eq, eq_comm]
    exact ⟨TargetId.eq_of_bytes_eq, congrArg TargetId.bytes⟩
  have howner : compare owner.bytes key.owner.bytes = .eq ↔ key.owner = owner := by
    rw [Std.LawfulEqCmp.compare_eq_iff_eq, eq_comm]
    exact ⟨OwnerId.eq_of_bytes_eq, congrArg OwnerId.bytes⟩
  have hday : ∀ d d' : Day, (compare d.number d'.number).isLE ↔ d ≤ d' := fun _ _ =>
    Std.isLE_compare
  show ((compare target.bytes key.target.bytes).then ((compare owner.bytes key.owner.bytes).then
      (compare first.number key.day.number))).isLE ∧
    ((compare key.target.bytes target.bytes).then ((compare key.owner.bytes owner.bytes).then
      (compare key.day.number last.number))).isLE ↔ _
  rw [hswap target.bytes, hswap owner.bytes, isLE_then_and_swap_then, isLE_then_and_swap_then,
    htarget, howner, hday, hday]

namespace DayHistory

/-- Nothing was recorded in any minute of an empty day. -/
theorem get_empty (key : HistoryKey) (m : Nat) : (empty key).get m = 0 := by
  unfold get empty
  rw [Vector.getElem?_replicate]
  split <;> rfl

/-- A minute that no day has holds nothing. -/
theorem get_of_le (row : DayHistory) {m : Nat} (hm : minutesPerDay ≤ m) : row.get m = 0 := by
  rw [get, Vector.getElem?_eq_none hm]
  rfl

/-- A minute holds what was written into it last; a write to a minute that no day has
changes none. -/
theorem get_set (row : DayHistory) (minute : Nat) (value : UInt16) {m : Nat}
    (hm : m < minutesPerDay) :
    (row.set minute value).get m = if m = minute then value else row.get m := by
  unfold get set
  rw [Vector.getElem?_setIfInBounds]
  by_cases heq : m = minute
  · subst heq
    rw [if_pos rfl, if_pos hm, if_pos rfl]
    rfl
  · rw [if_neg (Ne.symm heq), if_neg heq]

/-- Whatever stands in a row, it is read from its bytes, under whatever key. -/
theorem ofBlob?_toBlob (row : DayHistory) (key : HistoryKey) :
    ofBlob? key row.toBlob = some ⟨key, row.slots⟩ := by
  have hlength : row.slots.toList.length = minutesPerDay := by simp
  unfold ofBlob? toBlob
  rw [LittleEndian.toWords16?_ofWords16, Option.bind_some, ofSlots?, DaySlots.ofList?,
    dif_pos hlength]
  simp [Vector.toList]

/-- The bytes of a day are as many as its slots need. -/
theorem length_toBlob (row : DayHistory) : row.toBlob.length = 2 * minutesPerDay := by
  have hslots : row.slots.toList.length = minutesPerDay := row.slots.length_toList
  rw [toBlob, LittleEndian.length_ofWords16, hslots]

/-- Bytes are read if there are as many as that. -/
theorem isSome_ofBlob?_iff {key : HistoryKey} {blob : List UInt8} :
    (ofBlob? key blob).isSome ↔ blob.length = 2 * minutesPerDay := by
  have hwords : ∀ words, LittleEndian.toWords16? blob = some words →
      blob.length = 2 * words.length := by
    intro words hwords
    rw [← LittleEndian.length_ofWords16, LittleEndian.ofWords16_of_toWords16? hwords]
  constructor
  · intro hread
    obtain ⟨row, hrow⟩ := Option.isSome_iff_exists.1 hread
    obtain ⟨words, hblob, hslots⟩ := Option.bind_eq_some_iff.1 hrow
    obtain ⟨slots, hslots, -⟩ := Option.map_eq_some_iff.1 hslots
    rw [DaySlots.ofList?] at hslots
    split at hslots
    · next hlength => rw [hwords words hblob, hlength]
    · cases hslots
  · intro hlength
    obtain ⟨words, hblob⟩ := LittleEndian.exists_toWords16? hlength
    have hcount : words.length = minutesPerDay := by
      have := hwords words hblob
      omega
    rw [ofBlob?, hblob, Option.bind_some, ofSlots?, DaySlots.ofList?, dif_pos hcount]
    rfl

/-- A row is told by its key and its bytes. -/
theorem eq_of_toBlob_eq {a b : DayHistory} (hkey : a.key = b.key) (hblob : a.toBlob = b.toBlob) :
    a = b := by
  have hread := ofBlob?_toBlob a a.key
  rw [hblob, ofBlob?_toBlob] at hread
  have hrow : DayHistory.mk a.key b.slots = a := Option.some.inj hread
  rw [← hrow, hkey]

/-- The row of a day after a write, which begins it if there is none. -/
def write (w : SlotWrite) : Option DayHistory → DayHistory
  | some row => row.set w.minute w.value
  | none => single w.key w.minute w.value

/-- What a minute shows of a day that may have no row. -/
def readingOf (row? : Option DayHistory) (m : Nat) : Slot.Reading :=
  match row? with
  | some row => row.reading m
  | none => .noData

/-- What a minute holds of a day that may have no row. -/
def slotOf (row? : Option DayHistory) (m : Nat) : UInt16 :=
  match row? with
  | some row => row.get m
  | none => 0

/-- A minute shows what it holds. -/
theorem readingOf_eq (row? : Option DayHistory) (m : Nat) :
    readingOf row? m = Slot.read (slotOf row? m) := by
  cases row? <;> rfl

/-- There is no slot after the last minute. -/
theorem slotOf_of_le (row? : Option DayHistory) {m : Nat} (hm : minutesPerDay ≤ m) :
    slotOf row? m = 0 := by
  cases row? with
  | some row => exact row.get_of_le hm
  | none => rfl

/-- A write changes the minute it is for, and no other. -/
theorem get_write (w : SlotWrite) (row? : Option DayHistory) {m : Nat} (hm : m < minutesPerDay) :
    (write w row?).get m = if m = w.minute then w.value else slotOf row? m := by
  cases row? with
  | some row => exact row.get_set w.minute w.value hm
  | none =>
      have hempty : slotOf none m = (empty w.key).get m := (get_empty w.key m).symm
      rw [hempty]
      exact (empty w.key).get_set w.minute w.value hm

/-- A row keeps the key it was begun with. -/
theorem key_write {w : SlotWrite} {row? : Option DayHistory}
    (hkey : ∀ row, row? = some row → row.key = w.key) : (write w row?).key = w.key := by
  cases row? with
  | some row => exact hkey row rfl
  | none => rfl

end DayHistory

end PeerWatch
