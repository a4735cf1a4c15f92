import Mathlib.Data.List.Forall2
import PeerWatch.Proofs.Databases
import PeerWatch.Proofs.ExportPrefixes

/-!
# The bytes of a day's slots

A day is stored as the bytes of its slots, two for each minute.  Bytes are read if there are
as many as a day has, and then the day that is read has these bytes; so rows and byte strings
of that length are the same.  An export tells a row by its timestamp and the same bytes.  A
slot that is written has two bytes of its own, and no other byte of the row changes; nor does
any, if a batch fails.

* `LittleEndian.ofWords16_set` — the bytes of words, one of which is another;
* `decodeBlob_eq_ok_iff`, `exists_decodeBlob_iff` — byte strings and what is read of them;
* `DayHistory.toBlob_set`, `DayHistory.getElem?_toBlob_set` — the bytes of a minute;
* `Export.write_unlimited`, `Export.forall₂_of_records` — what is written of rows, and the
  record of each;
* `Database.getElem?_write`, `Database.storedBytes?_record` — one write, and a whole batch;
* `slot_bytes_are_exact`.
-/

namespace PeerWatch

namespace LittleEndian

theorem ofWords16_append (first rest : List UInt16) :
    ofWords16 (first ++ rest) = ofWords16 first ++ ofWords16 rest := List.flatMap_append

/-- Another word among some words has its two bytes in place of those of the former. -/
theorem ofWords16_set {words : List UInt16} {i : Nat} (hi : i < words.length) (w : UInt16) :
    ofWords16 (words.set i w) =
      (ofWords16 words).take (2 * i) ++ word16 w ++ (ofWords16 words).drop (2 * i + 2) := by
  have hfirst : (ofWords16 (words.take i)).length = 2 * i := by
    rw [length_ofWords16, List.length_take_of_le (Nat.le_of_lt hi)]
  have hthrough : (ofWords16 (words.take (i + 1))).length = 2 * i + 2 := by
    rw [length_ofWords16, List.length_take_of_le hi]
    rfl
  have htake : (ofWords16 words).take (2 * i) = ofWords16 (words.take i) := by
    rw [← words.take_append_drop i, ofWords16_append, List.take_left' hfirst,
      words.take_append_drop i]
  have hdrop : (ofWords16 words).drop (2 * i + 2) = ofWords16 (words.drop (i + 1)) := by
    rw [← words.take_append_drop (i + 1), ofWords16_append, List.drop_left' hthrough,
      words.take_append_drop (i + 1)]
  have hcons : ofWords16 (w :: words.drop (i + 1)) = word16 w ++ ofWords16 (words.drop (i + 1)) :=
    List.flatMap_cons
  rw [List.set_eq_take_append_cons_drop, if_pos hi, ofWords16_append, hcons, htake, hdrop,
    List.append_assoc]

end LittleEndian

open LittleEndian

variable {key : HistoryKey} {blob : List UInt8}

/-- **What is read of a byte string** is the day that has these bytes. -/
theorem decodeBlob_eq_ok_iff {row : DayHistory} :
    decodeBlob key blob = .ok row ↔ row.key = key ∧ row.toBlob = blob := by
  constructor
  · intro h
    obtain ⟨read, hread⟩ : ∃ read, DayHistory.ofBlob? key blob = some read := by
      unfold decodeBlob at h
      split at h
      · next read hread => exact ⟨read, hread⟩
      · cases h
    rw [decodeBlob, hread] at h
    obtain rfl := Except.ok.inj h
    obtain ⟨words, hwords, hrow⟩ := Option.bind_eq_some_iff.1 hread
    obtain ⟨slots, hslots, rfl⟩ := Option.map_eq_some_iff.1 hrow
    unfold DaySlots.ofList? at hslots
    split at hslots
    · obtain rfl := Option.some.inj hslots
      exact ⟨rfl, ofWords16_of_toWords16? hwords⟩
    · cases hslots
  · rintro ⟨rfl, rfl⟩
    rw [decodeBlob, row.ofBlob?_toBlob]

/-- Bytes are read if there are as many as a day has. -/
theorem exists_decodeBlob_iff :
    (∃ row, decodeBlob key blob = .ok row) ↔ blob.length = 2880 := by
  constructor
  · rintro ⟨row, hrow⟩
    rw [← (decodeBlob_eq_ok_iff.1 hrow).2, row.length_toBlob]
    rfl
  · intro hlength
    obtain ⟨row, hrow⟩ := Option.isSome_iff_exists.1 (DayHistory.isSome_ofBlob?_iff.2 hlength)
    exact ⟨row, by rw [decodeBlob, hrow]⟩

/-- Other bytes are refused with their number. -/
theorem decodeBlob_of_error {e : StoreError} (h : decodeBlob key blob = .error e) :
    e = .corrupt (.blobLength key blob.length) := by
  unfold decodeBlob at h
  split at h
  · cases h
  · exact (Except.error.inj h).symm

namespace DayHistory

variable (row : DayHistory) {minute : Nat}

/-- **The bytes of a minute** are the only ones that another value for it changes. -/
theorem toBlob_set (hminute : minute < minutesPerDay) (value : UInt16) :
    (row.set minute value).toBlob =
      row.toBlob.take (2 * minute) ++ word16 value ++ row.toBlob.drop (2 * minute + 2) := by
  have hlength : row.slots.toList.length = minutesPerDay := row.slots.length_toList
  have hslots : (row.set minute value).slots.toList = row.slots.toList.set minute value :=
    Vector.toList_setIfInBounds
  rw [toBlob, hslots, ofWords16_set (by rwa [hlength]), toBlob]

/-- A minute that no day has changes nothing. -/
theorem set_of_le (hminute : minutesPerDay ≤ minute) (value : UInt16) :
    row.set minute value = row := by
  have hslots : row.slots.setIfInBounds minute value = row.slots :=
    Vector.setIfInBounds_eq_of_size_le hminute
  rw [set, hslots]

/-- Writing a minute leaves all bytes but its own two. -/
theorem getElem?_toBlob_set (value : UInt16) {i : Nat} (hlow : i ≠ 2 * minute)
    (hhigh : i ≠ 2 * minute + 1) : (row.set minute value).toBlob[i]? = row.toBlob[i]? := by
  by_cases hminute : minute < minutesPerDay
  · have hlength := row.length_toBlob
    have hfirst : (row.toBlob.take (2 * minute)).length = 2 * minute := by
      rw [List.length_take, hlength]
      omega
    have hword : (word16 value).length = 2 := rfl
    rw [row.toBlob_set hminute value, List.append_assoc]
    -- a byte lies before the two of the minute or behind them
    rcases Nat.lt_or_gt_of_ne hlow with hbefore | hafter
    · rw [List.getElem?_append_left (by omega), List.getElem?_take_of_lt hbefore]
    · rw [List.getElem?_append_right (by omega), List.getElem?_append_right (by omega),
        List.getElem?_drop, hfirst, hword]
      congr 1
      omega
  · rw [row.set_of_le (Nat.le_of_not_lt hminute)]

end DayHistory

namespace Export

variable {rows told rest : List DayHistory} {records : List Record}

/-- Whether a record is that of a row: it has the second that the day of the row begins at,
its bytes are those of this second and the stored ones, and the slots it shows are read of
the stored ones. -/
def Record.Repeats (r : Record) (row : DayHistory) : Prop :=
  dayTimestamp row.key.day = .ok r.timestamp ∧ r.toBytes = word32 r.timestamp ++ row.toBlob ∧
    decodeBlob row.key row.toBlob = .ok ⟨row.key, r.slots⟩

/-- The record of a row repeats its slots. -/
theorem Record.repeats_of_ofRow {r : Record} {row : DayHistory} (h : ofRow row = .ok r) :
    r.Repeats row := by
  obtain ⟨htimestamp, hslots⟩ := ofRow_eq_ok_iff.1 h
  refine ⟨dayTimestamp_eq_ok_iff.2 htimestamp, ?_, ?_⟩
  · rw [toBytes, hslots, DayHistory.toBlob]
  · rw [hslots]
    exact decodeBlob_eq_ok_iff.2 ⟨rfl, rfl⟩

/-- Rows and their records, one by one. -/
theorem forall₂_of_records (h : told.map Record.ofRow = records.map .ok) :
    List.Forall₂ (fun row r => Record.Repeats r row) told records := by
  have hsame : List.Forall₂ (· = ·) (told.map Record.ofRow) (records.map .ok) := by
    rw [h]
    exact List.forall₂_refl _
  rw [List.forall₂_map_left_iff, List.forall₂_map_right_iff] at hsame
  exact hsame.imp fun _ _ => Record.repeats_of_ofRow

/-- What is written of rows, the first of which have their records, if there is always
room. -/
theorem write_unlimited (hrows : inOrder rows = told ++ rest)
    (hrecords : told.map Record.ofRow = records.map .ok)
    (hrest : ∀ row ∈ rest.head?, isTold row.key.day = false) (before : List UInt8) :
    (write rows ⟨before, none⟩).1 = ⟨before ++ bytesOf records, none⟩ := by
  have hwritten := writeRows_append_of_records ⟨before, none⟩ hrecords rest
  rw [write, hrows, hwritten]
  cases rest with
  | nil => rfl
  | cons row rest =>
      have hrow : isTold row.key.day = false := hrest row rfl
      simp only [Sink.put, if_true, writeRows_cons_of_untold _ hrow]

end Export

namespace Database

variable {db db' : Database}

/-- The bytes that are stored of a day. -/
def storedBytes? (db : Database) (key : HistoryKey) : Option (List UInt8) :=
  db.history.bind fun table => table.rows.find? (HistoryRowKey.ofKey key)

/-- The bytes stored for a day, out of the rows of the history. -/
theorem storedBytes?_eq (db : Database) (key : HistoryKey) :
    db.storedBytes? key = db.sheets.history.find? (HistoryRowKey.ofKey key) := by
  cases h : db.history with
  | none => simp [storedBytes?, sheets, h]
  | some table => simp [storedBytes?, sheets, h]

/-- What a write makes of the bytes of a day. -/
theorem write_eq (w : SlotWrite) {row : DayHistory} (hrow : decodeBlob w.key blob = .ok row) :
    databaseHand.write w (some blob) = (row.set w.minute w.value).toBlob := by
  obtain ⟨hkey, rfl⟩ := decodeBlob_eq_ok_iff.1 hrow
  have hread : DayHistory.ofBlob? w.key row.toBlob = some row := by
    rw [← hkey, row.ofBlob?_toBlob]
  simp only [databaseHand, Option.bind_some, hread, DayHistory.write]

/-- **One write** keeps all bytes but those of its minute. -/
theorem getElem?_write (w : SlotWrite) (hlength : blob.length = 2880) {i : Nat}
    (hlow : i ≠ 2 * w.minute) (hhigh : i ≠ 2 * w.minute + 1) :
    (databaseHand.write w (some blob))[i]? = blob[i]? := by
  obtain ⟨row, hrow⟩ := exists_decodeBlob_iff.2 hlength
  rw [write_eq w hrow, row.getElem?_toBlob_set w.value hlow hhigh,
    (decodeBlob_eq_ok_iff.1 hrow).2]

/-- The bytes of a day after some writes, as many as before, and the same but for those of
the minutes that were written. -/
theorem writeAll_bytes (rs : List OutcomeRecord) (hlength : blob.length = 2880) :
    ∃ blob', databaseHand.writeAll rs (some blob) = some blob' ∧ blob'.length = 2880 ∧
      ∀ i, (∀ r ∈ rs, i ≠ 2 * r.slot.minute ∧ i ≠ 2 * r.slot.minute + 1) →
        blob'[i]? = blob[i]? := by
  -- the rest of the writes meet bytes that have the length of a day again
  induction rs generalizing blob with
  | nil => exact ⟨blob, rfl, hlength, fun _ _ => rfl⟩
  | cons r rest ih =>
      have hwritten : (databaseHand.write r.slot (some blob)).length = 2880 :=
        DayHistory.length_toBlob _
      obtain ⟨blob', hall, hlength', hsame⟩ := ih hwritten
      refine ⟨blob', hall, hlength', fun i hi => ?_⟩
      obtain ⟨⟨hlow, hhigh⟩, hrest⟩ := List.forall_mem_cons.1 hi
      rw [hsame i hrest, getElem?_write r.slot hlength hlow hhigh]

/-- What is stored of a day once some records are entered. -/
theorem storedBytes?_entered {rs : List OutcomeRecord} (haccepts : AcceptsAll rs db) :
    (db.withSheets (databaseHand.enterAll rs db.sheets).1).storedBytes? key =
      databaseHand.writeAll (rs.filter fun r => r.slot.key = key) (db.storedBytes? key) := by
  have hkeys : (rs.filter fun r => databaseHand.dayKey r.slot.key = HistoryRowKey.ofKey key) =
      rs.filter fun r => r.slot.key = key :=
    List.filter_congr fun r _ => by
      rw [decide_eq_decide]
      exact ⟨databaseHand.dayKey_inj _ _, congrArg _⟩
  rw [storedBytes?_eq, storedBytes?_eq, sheets_entered haccepts.hasTables,
    databaseHand.find?_history_enterAll, hkeys]

/-- **A batch,** whatever comes of it, leaves as many bytes of a day as there were, and the
same but for those of the minutes that it has records of. -/
theorem storedBytes?_record (db : Database) (rs : List OutcomeRecord)
    (hstored : db.storedBytes? key = some blob) (hlength : blob.length = 2880) :
    ∃ blob', (db.record rs).1.storedBytes? key = some blob' ∧ blob'.length = 2880 ∧
      ∀ i, (∀ r ∈ rs, r.slot.key = key → i ≠ 2 * r.slot.minute ∧ i ≠ 2 * r.slot.minute + 1) →
        blob'[i]? = blob[i]? := by
  rcases record_cases db rs with ⟨haccepts, hafter⟩ | ⟨-, hafter⟩
  · obtain ⟨blob', hall, hlength', hsame⟩ :=
      writeAll_bytes (rs.filter fun r => r.slot.key = key) hlength
    refine ⟨blob', ?_, hlength', fun i hi => hsame i fun r hr => ?_⟩
    · rw [hafter, storedBytes?_entered haccepts, hstored, hall]
    · obtain ⟨hmem, hkey⟩ := List.mem_filter.1 hr
      exact hi r hmem (of_decide_eq_true hkey)
  · rw [hafter]
    exact ⟨blob, hstored, hlength, fun _ _ => rfl⟩

/-- **An outcome that is recorded** has the bytes of its slot, the one of less weight first,
where those of its minute were. -/
theorem storedBytes?_record_ok {r : OutcomeRecord} {report : BatchReport}
    (h : db.record [r] = (db', .ok report)) (hstored : db.storedBytes? r.slot.key = some blob)
    (hminute : r.slot.minute < 1440) :
    db'.storedBytes? r.slot.key = some (blob.take (2 * r.slot.minute) ++ word16 r.slot.value ++
      blob.drop (2 * r.slot.minute + 2)) := by
  obtain ⟨haccepts, -, rfl⟩ := record_ok_iff.1 h
  obtain ⟨table, htable, -, hreadable⟩ := haccepts.1.2
  have hfound : table.rows.find? (HistoryRowKey.ofKey r.slot.key) = some blob := by
    rwa [storedBytes?, htable] at hstored
  obtain ⟨row, hrow⟩ := exists_decodeBlob_iff.2
    (DayHistory.isSome_ofBlob?_iff.1 (hreadable blob hfound))
  rw [storedBytes?_entered haccepts, hstored]
  have hone : ([r].filter fun r' => r'.slot.key = r.slot.key) = [r] :=
    List.filter_cons_of_pos (decide_eq_true rfl)
  rw [hone, Hand.writeAll, List.foldl_cons, List.foldl_nil, write_eq r.slot hrow,
    row.toBlob_set hminute, (decodeBlob_eq_ok_iff.1 hrow).2]

end Database

open Calendar Export

/-- **The bytes of slots are exact.**  Whatever row is stored, it is read back from its bytes,
under whatever key.  Byte strings are read if they have 2880 bytes, and only then, the others
being refused with their number; and what is read has these bytes.

An export has, of any rows, those up to the first whose day no record can tell, in the order
of their days.  Each has the record of the second that its day begins at and of the bytes
that are stored of it; whoever reads the export gets these records, with the slots that are
read of the stored bytes.

A batch that is recorded in a database, or fails to be, leaves as many bytes of a day that is
stored as there were, and the same but for the two of each minute that it has a record of.
Of a single outcome that is recorded these two are the bytes of its slot. -/
theorem slot_bytes_are_exact :
    (∀ (row : DayHistory) (key : HistoryKey),
      decodeBlob key row.toBlob = .ok ⟨key, row.slots⟩) ∧
    (∀ (key : HistoryKey) (blob : List UInt8),
      ((∃ row, decodeBlob key blob = .ok row) ↔ blob.length = 2880) ∧
      (∀ e, decodeBlob key blob = .error e → e = .corrupt (.blobLength key blob.length)) ∧
      ∀ row, decodeBlob key blob = .ok row → row.key = key ∧ row.toBlob = blob) ∧
    (∀ (rows : List DayHistory) (before : List UInt8), ∃ told rest records,
      inOrder rows = told ++ rest ∧
      (∀ row ∈ told, Day.epoch ≤ row.key.day ∧ row.key.day ≤ lastTold) ∧
      (∀ row ∈ rest.head?, ¬ (Day.epoch ≤ row.key.day ∧ row.key.day ≤ lastTold)) ∧
      (write rows ⟨before, none⟩).1 = ⟨before ++ records.flatMap Record.toBytes, none⟩ ∧
      read (records.flatMap Record.toBytes) = .ok records ∧
      List.Forall₂ (fun row (r : Record) => dayTimestamp row.key.day = .ok r.timestamp ∧
        r.toBytes = word32 r.timestamp ++ row.toBlob ∧
        decodeBlob row.key row.toBlob = .ok ⟨row.key, r.slots⟩) told records) ∧
    (∀ (db : Database) (rs : List OutcomeRecord) (key : HistoryKey) (blob : List UInt8),
      db.storedBytes? key = some blob → blob.length = 2880 →
      ∃ blob', (db.record rs).1.storedBytes? key = some blob' ∧ blob'.length = 2880 ∧
        ∀ i, (∀ r ∈ rs, r.slot.key = key →
          i ≠ 2 * r.slot.minute ∧ i ≠ 2 * r.slot.minute + 1) → blob'[i]? = blob[i]?) ∧
    ∀ (db db' : Database) (r : OutcomeRecord) (report : BatchReport) (blob : List UInt8),
      db.record [r] = (db', .ok report) → db.storedBytes? r.slot.key = some blob →
      r.slot.minute < 1440 →
      db'.storedBytes? r.slot.key = some (blob.take (2 * r.slot.minute) ++
        word16 r.slot.value ++ blob.drop (2 * r.slot.minute + 2)) := by
  refine ⟨fun row key => ?_, fun key blob => ⟨exists_decodeBlob_iff, fun e => decodeBlob_of_error,
    fun row => decodeBlob_eq_ok_iff.1⟩, fun rows before => ?_,
    fun db rs key blob hstored hlength => db.storedBytes?_record rs hstored hlength,
    fun db db' r report blob h hstored hminute =>
      Database.storedBytes?_record_ok h hstored hminute⟩
  · rw [decodeBlob, row.ofBlob?_toBlob]
  · obtain ⟨told, rest, hrows, htold, hrest⟩ := exists_told_append (inOrder rows)
    obtain ⟨records, hrecords⟩ := exists_records htold
    exact ⟨told, rest, records, hrows, fun row hrow => of_decide_eq_true (htold row hrow),
      fun row hrow => of_decide_eq_false (hrest row hrow),
      write_unlimited hrows hrecords hrest before, read_eq_ok_iff.2 rfl,
      forall₂_of_records hrecords⟩

/-- An outcome of the last minute is recorded into a day that is stored: the last two bytes
are those of the new value, and the others are as they were. -/
theorem slot_bytes_are_exact_last_minute :
    ∃ (db db' : Database) (r : OutcomeRecord) (report : BatchReport),
      r.slot.minute = 1439 ∧ r.slot.value = 0x0304 ∧ db.record [r] = (db', .ok report) ∧
      db.storedBytes? r.slot.key = some (List.replicate 2880 1) ∧
      db'.storedBytes? r.slot.key = some (List.replicate 2878 1 ++ [0x04, 0x03]) ∧
      ∃ blob, db'.storedBytes? r.slot.key = some blob ∧
        ∀ i, i ≠ 2878 → i ≠ 2879 → blob[i]? = (List.replicate 2880 1)[i]? := by
  -- bytes and record stay variables, so that nothing writes them out
  obtain ⟨bytes, hbytes⟩ : ∃ bytes : List UInt8, bytes = List.replicate 2880 1 := ⟨_, rfl⟩
  obtain ⟨r, hminute, hvalue⟩ :
      ∃ r : OutcomeRecord, r.slot.minute = 1439 ∧ r.slot.value = 0x0304 :=
    ⟨⟨⟨default, default, 7, none⟩, ⟨default, 1439, 0x0304⟩⟩, rfl, rfl⟩
  have hlength : bytes.length = 2880 := by rw [hbytes, List.length_replicate]
  let days : Table HistoryRowKey (List UInt8) :=
    (∅ : Table _ _).insert (.ofKey r.slot.key) bytes
  let db : Database := ⟨some ⟨∅, []⟩, some ⟨days, []⟩, [1]⟩
  have hstored : db.storedBytes? r.slot.key = some bytes := by
    show days.find? (.ofKey r.slot.key) = _
    rw [Table.find?_insert, if_pos rfl]
  have haccepts : Database.AcceptsAll [r] db := by
    refine ⟨⟨⟨_, rfl, nofun⟩, ⟨_, rfl, rfl, fun blob hblob => ?_⟩⟩, trivial⟩
    obtain rfl : bytes = blob := Option.some.inj (hstored.symm.trans hblob)
    exact DayHistory.isSome_ofBlob?_iff.2 hlength
  have hrecord := Database.record_ok_iff.2 ⟨haccepts, rfl, rfl⟩
  obtain ⟨-, -, -, hbatches, hsingle⟩ := slot_bytes_are_exact
  have hwritten := hsingle db _ r _ bytes hrecord hstored (by rw [hminute]; decide)
  obtain ⟨blob, hblob, -, hsame⟩ := hbatches db [r] r.slot.key bytes hstored hlength
  rw [hrecord] at hblob
  have hfirst : bytes.take 2878 = List.replicate 2878 1 := by
    rw [hbytes, List.take_replicate]
    rfl
  have hrest : bytes.drop 2880 = [] := List.drop_of_length_le (Nat.le_of_eq hlength)
  rw [hminute, hvalue, hfirst, hrest, List.append_nil] at hwritten
  rw [← hbytes]
  refine ⟨db, _, r, _, hminute, hvalue, hrecord, hstored, hwritten, blob, hblob,
    fun i hlow hhigh => hsame i fun r' hr' _ => ?_⟩
  obtain rfl := List.mem_singleton.1 hr'
  rw [hminute]
  exact ⟨hlow, hhigh⟩

end PeerWatch
