import PeerWatch.Export.Record

/-!
# Exports and the rows they tell

An export is the bytes of its records one after another, and nothing else: whoever reads it
gets the records back, and whoever reads bytes at all, if they are as many as some records
have, has read the records whose bytes they are.  A record tells the day of its row and all
of its slots, if the day can be told; and the rows stand in the order of their days, those
of one day in the order they were given in.

* `LittleEndian.word32_join32`, `LittleEndian.join32_word32` — the bytes of a long word, both
  ways;
* `Export.Record.ofBytes?_toBytes`, `Export.Record.exists_toBytes` — records and their bytes;
* `Export.read_eq_ok_iff` — a byte string and its records;
* `Export.writeRows_append_of_records` — rows that can be told, whatever the sink has room for;
* `Export.inOrder_stable` — the order of the rows;
* `Export.write_of_records` — rows that can be told, and what is written of them;
* `Export.exports_read_back`.
-/

namespace PeerWatch

namespace LittleEndian

/-- The number of four bytes gives the bytes back. -/
theorem word32_join32 (b₀ b₁ b₂ b₃ : UInt8) : word32 (join32 b₀ b₁ b₂ b₃) = [b₀, b₁, b₂, b₃] := by
  have h₀ : b₀.toNat < 256 := b₀.toNat_lt
  have h₁ : b₁.toNat < 256 := b₁.toNat_lt
  have h₂ : b₂.toNat < 256 := b₂.toNat_lt
  have h₃ : b₃.toNat < 256 := b₃.toNat_lt
  simp only [word32, join32, UInt32.toNat_ofNat', List.cons.injEq, and_true]
  refine ⟨UInt8.toNat_inj.1 ?_, UInt8.toNat_inj.1 ?_, UInt8.toNat_inj.1 ?_, UInt8.toNat_inj.1 ?_⟩
    <;> rw [UInt8.toNat_ofNat'] <;> omega

/-- The bytes of a number give the number back. -/
theorem join32_word32 (w : UInt32) :
    join32 (UInt8.ofNat w.toNat) (UInt8.ofNat (w.toNat / 256)) (UInt8.ofNat (w.toNat / 65536))
      (UInt8.ofNat (w.toNat / 16777216)) = w := by
  have hw : w.toNat < 4294967296 := w.toNat_lt
  apply UInt32.toNat_inj.1
  simp only [join32, UInt32.toNat_ofNat', UInt8.toNat_ofNat']
  omega

end LittleEndian

/-- The slots of a list are there when it has as many as minutes. -/
theorem DaySlots.ofList?_toList (slots : DaySlots) :
    DaySlots.ofList? slots.toList = some slots := by
  have hlength : slots.toList.length = minutesPerDay := slots.length_toList
  rw [DaySlots.ofList?, dif_pos hlength]
  rfl

theorem DaySlots.exists_toList {slots : List UInt16} (h : slots.length = minutesPerDay) :
    ∃ day : DaySlots, day.toList = slots :=
  ⟨⟨slots.toArray, by rw [List.size_toArray, h]⟩, rfl⟩

namespace Export

open Calendar LittleEndian

namespace Record

variable {bytes : List UInt8}

/-- All records have the same length. -/
theorem length_toBytes (r : Record) : r.toBytes.length = recordLength := by
  rw [toBytes, List.length_append, length_ofWords16, Vector.length_toList]
  rfl

/-- **A record** is read back from its bytes. -/
theorem ofBytes?_toBytes (r : Record) : ofBytes? r.toBytes = some r := by
  show ((toWords16? (ofWords16 r.slots.toList)).bind DaySlots.ofList?).map _ = some r
  rw [toWords16?_ofWords16, Option.bind_some, DaySlots.ofList?_toList, Option.map_some,
    join32_word32]

/-- **As many bytes** as a record has are those of a record. -/
theorem exists_toBytes (h : bytes.length = recordLength) : ∃ r : Record, r.toBytes = bytes := by
  match bytes, h with
  | b₀ :: b₁ :: b₂ :: b₃ :: rest, h =>
      have hrest : rest.length = 2 * minutesPerDay := by
        simp only [List.length_cons, recordLength] at h
        omega
      obtain ⟨words, hwords⟩ := exists_toWords16? hrest
      have hbytes := ofWords16_of_toWords16? hwords
      have hlength : words.length = minutesPerDay := by
        have hlength := length_ofWords16 words
        rw [hbytes, hrest] at hlength
        omega
      obtain ⟨slots, hslots⟩ := DaySlots.exists_toList hlength
      refine ⟨⟨join32 b₀ b₁ b₂ b₃, slots⟩, ?_⟩
      rw [toBytes, word32_join32, hslots, hbytes]
      rfl

end Record

/-- The bytes of some records. -/
def bytesOf (records : List Record) : List UInt8 := records.flatMap Record.toBytes

/-- The bytes of some records are as many as their number demands. -/
theorem length_bytesOf (records : List Record) :
    (bytesOf records).length = recordLength * records.length := by
  induction records with
  | nil => rfl
  | cons r rest ih =>
      rw [bytesOf, List.flatMap_cons, List.length_append, r.length_toBytes, ← bytesOf, ih,
        List.length_cons, Nat.mul_succ, Nat.add_comm]

/-- Records are read back from their bytes. -/
theorem readRecords_bytesOf (records : List Record) :
    readRecords records.length (bytesOf records) = records := by
  induction records with
  | nil => rfl
  | cons r rest ih =>
      rw [bytesOf, List.flatMap_cons, ← bytesOf, List.length_cons, readRecords,
        List.take_left' r.length_toBytes, List.drop_left' r.length_toBytes, r.ofBytes?_toBytes]
      show r :: readRecords rest.length (bytesOf rest) = r :: rest
      rw [ih]

/-- So many bytes as some records have are those of as many records. -/
theorem exists_bytesOf {bytes : List UInt8} {count : Nat}
    (h : bytes.length = recordLength * count) : ∃ records, bytesOf records = bytes := by
  induction count generalizing bytes with
  | zero =>
      obtain rfl := List.length_eq_zero_iff.1 h
      exact ⟨[], rfl⟩
  | succ count ih =>
      rw [Nat.mul_succ] at h
      have hfirst : (bytes.take recordLength).length = recordLength := by
        rw [List.length_take]
        omega
      have hothers : (bytes.drop recordLength).length = recordLength * count := by
        rw [List.length_drop]
        omega
      obtain ⟨r, hr⟩ := Record.exists_toBytes hfirst
      obtain ⟨rest, hrest⟩ := ih hothers
      refine ⟨r :: rest, ?_⟩
      rw [bytesOf, List.flatMap_cons, ← bytesOf, hr, hrest, List.take_append_drop]

/-- **A byte string** has the records whose bytes it is. -/
theorem read_eq_ok_iff {bytes : List UInt8} {records : List Record} :
    read bytes = .ok records ↔ bytesOf records = bytes := by
  have hpositive : 0 < recordLength := by decide
  have hback (records : List Record) : read (bytesOf records) = .ok records := by
    rw [read, length_bytesOf, Nat.mul_mod_right, Nat.mul_div_cancel_left _ hpositive,
      readRecords_bytesOf]
    rfl
  constructor
  · intro h
    have hmod : bytes.length % recordLength = 0 := by
      unfold read at h
      split at h
      · cases h
      · next hmod => exact Decidable.not_not.1 hmod
    obtain ⟨records', rfl⟩ :=
      exists_bytesOf (Nat.mul_div_cancel' (Nat.dvd_of_mod_eq_zero hmod)).symm
    rw [hback] at h
    obtain rfl := Except.ok.inj h
    rfl
  · intro h
    rw [← h]
    exact hback records

/-- The last day that a 32-bit timestamp can tell, 2106-02-07. -/
def lastTold : Day := ⟨49710, by decide⟩

example : lastTold.civil = ⟨2106, 2, 7⟩ := by decide

/-- Whether a day can be told by a 32-bit timestamp. -/
def isTold (day : Day) : Bool := Day.epoch ≤ day ∧ day ≤ lastTold

/-- A day is told by the second it begins at. -/
theorem dayTimestamp_eq_ok_iff {day : Day} {timestamp : UInt32} :
    dayTimestamp day = .ok timestamp ↔ (timestamp.toNat : Int) = day.number * 86400 := by
  have hlt : timestamp.toNat < 4294967296 := timestamp.toNat_lt
  simp only [dayTimestamp]
  split
  · next hrange =>
      rw [Except.ok.injEq, ← UInt32.toNat_inj, UInt32.toNat_ofNat']
      omega
  · next hrange =>
      constructor
      · intro h
        cases h
      · intro h
        exact absurd ⟨by omega, by omega⟩ hrange

/-- The days that can be told are those from 1970-01-01 to 2106-02-07. -/
theorem dayTimestamp_of_isTold {day : Day} (h : isTold day) :
    ∃ timestamp, dayTimestamp day = .ok timestamp := by
  obtain ⟨hfirst, hlast⟩ := of_decide_eq_true h
  have hfirst : 0 ≤ day.number := hfirst
  have hlast : day.number ≤ 49710 := hlast
  refine ⟨_, if_pos ⟨?_, ?_⟩⟩ <;> omega

/-- A day that cannot be told is refused. -/
theorem dayTimestamp_of_not_isTold {day : Day} (h : isTold day = false) :
    dayTimestamp day = .error (.dayOutOfRange day) := by
  have hrange : ¬(0 ≤ day.number ∧ day.number ≤ 49710) := of_decide_eq_false h
  refine if_neg ?_
  omega

/-- Whether a record tells a row: the second its day begins at, and its slots. -/
def Record.Tells (r : Record) (row : DayHistory) : Prop :=
  (r.timestamp.toNat : Int) = row.key.day.number * 86400 ∧ r.slots = row.slots

/-- The record of a row is the one that tells its day and its slots. -/
theorem Record.ofRow_eq_ok_iff {r : Record} {row : DayHistory} :
    ofRow row = .ok r ↔ r.Tells row := by
  unfold ofRow Tells
  rw [← dayTimestamp_eq_ok_iff]
  cases hday : dayTimestamp row.key.day with
  | error fault => simp
  | ok timestamp =>
      simp only [Except.ok.injEq]
      constructor
      · rintro rfl
        exact ⟨rfl, rfl⟩
      · rintro ⟨rfl, hslots⟩
        rw [← hslots]

/-- A record shows the day of the row it tells. -/
theorem Record.Tells.day_eq {r : Record} {row : DayHistory} (h : r.Tells row) :
    r.day = row.key.day := by
  have hnumber : r.day.number = row.key.day.number := by
    show (r.timestamp.toNat : Int) / 86400 = _
    rw [h.1]
    omega
  cases hr : r.day
  cases hrow : row.key.day
  simp_all

/-- The rows whose days can be told have their records. -/
theorem exists_records {rows : List DayHistory} (h : ∀ row ∈ rows, isTold row.key.day) :
    ∃ records : List Record, rows.map Record.ofRow = records.map .ok := by
  induction rows with
  | nil => exact ⟨[], rfl⟩
  | cons row rest ih =>
      obtain ⟨records, hrest⟩ := ih fun row hrow => h row (List.mem_cons_of_mem _ hrow)
      obtain ⟨timestamp, hday⟩ := dayTimestamp_of_isTold (h row List.mem_cons_self)
      refine ⟨⟨timestamp, row.slots⟩ :: records, ?_⟩
      rw [List.map_cons, List.map_cons, hrest, Record.ofRow, hday]

/-- Rows that have the days and slots of records are told by them, if these tell whole
days. -/
theorem records_of_map_eq {rows : List DayHistory} {records : List Record}
    (h : rows.map (fun row => (row.key.day, row.slots)) = records.map (fun r => (r.day, r.slots)))
    (hwhole : ∀ r ∈ records, r.timestamp.toNat % 86400 = 0) :
    rows.map Record.ofRow = records.map .ok := by
  induction rows generalizing records with
  | nil =>
      obtain rfl : records = [] := by simpa using h
      rfl
  | cons row rest ih =>
      match records, h with
      | r :: records, h =>
          rw [List.map_cons, List.map_cons, List.cons.injEq, Prod.mk.injEq] at h
          obtain ⟨⟨hday, hslots⟩, hrest⟩ := h
          have hmod := hwhole r List.mem_cons_self
          have htells : r.Tells row := by
            refine ⟨?_, hslots.symm⟩
            rw [hday]
            show _ = (r.timestamp.toNat : Int) / 86400 * 86400
            omega
          rw [List.map_cons, List.map_cons, Record.ofRow_eq_ok_iff.2 htells,
            ih hrest fun r hr => hwhole r (List.mem_cons_of_mem _ hr)]

/-- What records tell of the rows that they are the records of. -/
theorem map_eq_of_records {α : Type} {rows : List DayHistory} {records : List Record}
    (h : rows.map Record.ofRow = records.map .ok) {f : DayHistory → α} {g : Record → α}
    (hfg : ∀ r row, Record.Tells r row → g r = f row) : records.map g = rows.map f := by
  induction rows generalizing records with
  | nil =>
      obtain rfl : records = [] := by simpa using h
      rfl
  | cons row rest ih =>
      match records, h with
      | r :: records, h =>
          rw [List.map_cons, List.map_cons, List.cons.injEq] at h
          rw [List.map_cons, List.map_cons, hfg r row (Record.ofRow_eq_ok_iff.1 h.1), ih h.2]

section Sinks

variable (sink : Sink)

theorem Sink.put_nil : sink.put [] = (sink, true) := by
  obtain ⟨written, room⟩ := sink
  cases room <;> simp [Sink.put]

/-- A sink takes of bytes that come in two parts what it takes of all of them at once. -/
theorem Sink.put_append (first second : List UInt8) :
    sink.put (first ++ second) =
      if (sink.put first).2 then (sink.put first).1.put second else sink.put first := by
  obtain ⟨written, room⟩ := sink
  cases room with
  | none => simp [Sink.put]
  | some room =>
      by_cases hfirst : first.length ≤ room
      · by_cases hall : first.length + second.length ≤ room
        · have hsecond : second.length ≤ room - first.length := by omega
          simp [Sink.put, hfirst, hall, hsecond, Nat.sub_sub]
        · have hsecond : ¬ second.length ≤ room - first.length := by omega
          simp [Sink.put, hfirst, hall, hsecond, List.take_append, List.take_of_length_le hfirst]
      · have hall : ¬ first.length + second.length ≤ room := by omega
        have htake : (first ++ second).take room = first.take room :=
          List.take_append_of_le_length (Nat.le_of_not_le hfirst)
        simp [Sink.put, hfirst, hall, htake]

/-- **Rows that have their records** are put into a sink as the bytes of these, and the rows
that follow them are put after them if there was room. -/
theorem writeRows_append_of_records {rows : List DayHistory} {records : List Record}
    (h : rows.map Record.ofRow = records.map .ok) (rest : List DayHistory) :
    writeRows (rows ++ rest) sink =
      if (sink.put (bytesOf records)).2 then writeRows rest (sink.put (bytesOf records)).1
      else ((sink.put (bytesOf records)).1, .error .sinkFull) := by
  induction rows generalizing records sink with
  | nil =>
      obtain rfl : records = [] := by simpa using h
      rw [bytesOf, List.flatMap_nil, sink.put_nil]
      rfl
  | cons row rows ih =>
      match records, h with
      | r :: records, h =>
          rw [List.map_cons, List.map_cons, List.cons.injEq] at h
          rw [List.cons_append, writeRows, h.1, bytesOf, List.flatMap_cons, ← bytesOf,
            sink.put_append]
          dsimp only
          cases hput : sink.put r.toBytes with
          | mk next fits =>
              cases fits with
              | false => rfl
              | true => exact ih next h.2

/-- Writing ends at a row whose day cannot be told. -/
theorem writeRows_cons_of_untold {row : DayHistory} (h : isTold row.key.day = false)
    (rest : List DayHistory) :
    writeRows (row :: rest) sink = (sink, .error (.dayOutOfRange row.key.day)) := by
  rw [writeRows, Record.ofRow, dayTimestamp_of_not_isTold h]

end Sinks

/-- What is written of rows that have their records. -/
theorem writeRows_of_records {rows : List DayHistory} {records : List Record}
    (h : rows.map Record.ofRow = records.map .ok) (before : List UInt8) :
    writeRows rows ⟨before, none⟩ = (⟨before ++ bytesOf records, none⟩, .ok ()) := by
  have hrows := writeRows_append_of_records ⟨before, none⟩ h []
  rw [List.append_nil] at hrows
  exact hrows

section Order

variable {rows : List DayHistory}

/-- Rows put in order are the same rows. -/
theorem inOrder_perm (rows : List DayHistory) : (inOrder rows).Perm rows :=
  List.mergeSort_perm _ _

theorem day_le_trans (a b c : DayHistory) (hab : decide (a.key.day ≤ b.key.day))
    (hbc : decide (b.key.day ≤ c.key.day)) : decide (a.key.day ≤ c.key.day) := by
  rw [decide_eq_true_iff] at hab hbc ⊢
  exact Int.le_trans hab hbc

theorem day_le_total (a b : DayHistory) :
    (decide (a.key.day ≤ b.key.day) || decide (b.key.day ≤ a.key.day)) = true := by
  rw [Bool.or_eq_true, decide_eq_true_iff, decide_eq_true_iff]
  exact Int.le_total _ _

/-- Rows put in order ascend by their days. -/
theorem inOrder_pairwise (rows : List DayHistory) :
    (inOrder rows).Pairwise fun a b => a.key.day ≤ b.key.day :=
  (List.pairwise_mergeSort day_le_trans day_le_total rows).imp of_decide_eq_true

/-- **The rows of one day** keep their order. -/
theorem inOrder_stable (rows : List DayHistory) (day : Day) :
    (inOrder rows).filter (·.key.day = day) = rows.filter (·.key.day = day) := by
  have hsame : (rows.filter (·.key.day = day)).Pairwise fun a b =>
      decide (a.key.day ≤ b.key.day) := by
    refine List.pairwise_of_forall_mem_list fun a ha b hb => ?_
    have ha := (List.mem_filter.1 ha).2
    have hb := (List.mem_filter.1 hb).2
    rw [decide_eq_true_iff] at ha hb ⊢
    rw [ha, hb]
    exact Int.le_refl _
  have hsublist : (rows.filter (·.key.day = day)).Sublist (inOrder rows) :=
    List.sublist_mergeSort day_le_trans day_le_total hsame List.filter_sublist
  have hfiltered := hsublist.filter (·.key.day = day)
  rw [List.filter_filter] at hfiltered
  simp only [Bool.and_self] at hfiltered
  exact (hfiltered.eq_of_length ((inOrder_perm rows).filter _).length_eq.symm).symm

/-- Rows that stand in order stay as they are. -/
theorem inOrder_of_pairwise (h : rows.Pairwise fun a b => a.key.day ≤ b.key.day) :
    inOrder rows = rows :=
  List.mergeSort_of_pairwise (h.imp decide_eq_true)

end Order

/-- **What is written** of rows whose days can be told: their records in order. -/
theorem write_of_records {rows : List DayHistory} {records : List Record}
    (h : (inOrder rows).map Record.ofRow = records.map .ok) (before : List UInt8) :
    write rows ⟨before, none⟩ = (⟨before ++ bytesOf records, none⟩, .ok rows.length) := by
  rw [write, writeRows_of_records h before]

/-- Rows of days that can be told have their records, as they stand in order. -/
theorem exists_records_inOrder {rows : List DayHistory} (h : ∀ row ∈ rows, isTold row.key.day) :
    ∃ records : List Record, (inOrder rows).map Record.ofRow = records.map .ok :=
  exists_records fun row hrow => h row ((inOrder_perm rows).mem_iff.1 hrow)

/-- Rows that have the days of records that stand in order stand in order themselves. -/
theorem pairwise_of_map_eq {rows : List DayHistory} {records : List Record}
    (h : rows.map (fun row => (row.key.day, row.slots)) = records.map (fun r => (r.day, r.slots)))
    (hordered : records.Pairwise fun a b => a.timestamp.toNat ≤ b.timestamp.toNat) :
    rows.Pairwise fun a b => a.key.day ≤ b.key.day := by
  have hdays : (records.map fun r => (r.day, r.slots)).Pairwise fun a b => a.1 ≤ b.1 := by
    rw [List.pairwise_map]
    refine hordered.imp fun {a b} hle => ?_
    show (a.timestamp.toNat : Int) / 86400 ≤ (b.timestamp.toNat : Int) / 86400
    omega
  rw [← h, List.pairwise_map] at hdays
  exact hdays

/-- Bytes are refused if they are not those of some records. -/
theorem read_eq_error_iff {bytes : List UInt8} :
    (∃ fault, read bytes = .error fault) ↔ bytes.length % recordLength ≠ 0 := by
  unfold read
  split
  · next hmod => exact ⟨fun _ => hmod, fun _ => ⟨_, rfl⟩⟩
  · next hmod => exact ⟨(by rintro ⟨_, h⟩; cases h), fun h => absurd h hmod⟩

/-- **Exports read back,** both ways.  Rows of days that can be told, in any order, are
written as so many records of 2884 bytes after what was there; who reads these bytes gets a
record for each row, in the order of the days, those of one day in the order of the rows,
with the row's day, the second that day begins at, and its slots.

Bytes are refused if their number is not that of some records, and only then.  If they are
read, they are as many as the records have; and if these tell whole days in order, any rows
with their days and slots are written as the same bytes. -/
theorem exports_read_back :
    (∀ (rows : List DayHistory) (before : List UInt8),
      (∀ row ∈ rows, Day.epoch ≤ row.key.day ∧ row.key.day ≤ lastTold) →
      ∃ (bytes : List UInt8) (records : List Record) (ordered : List DayHistory),
        write rows ⟨before, none⟩ = (⟨before ++ bytes, none⟩, .ok rows.length) ∧
        bytes.length = 2884 * rows.length ∧ read bytes = .ok records ∧
        ordered.Perm rows ∧ ordered.Pairwise (fun a b => a.key.day ≤ b.key.day) ∧
        (∀ day, ordered.filter (·.key.day = day) = rows.filter (·.key.day = day)) ∧
        records.map (fun r => (r.day, (r.timestamp.toNat : Int), r.slots)) =
          ordered.map fun row => (row.key.day, row.key.day.number * 86400, row.slots)) ∧
    ∀ bytes : List UInt8,
      ((∃ fault, read bytes = .error fault) ↔ bytes.length % 2884 ≠ 0) ∧
      ∀ records, read bytes = .ok records →
        bytes.length = 2884 * records.length ∧
        ((∀ r ∈ records, r.timestamp.toNat % 86400 = 0) →
          records.Pairwise (fun a b => a.timestamp.toNat ≤ b.timestamp.toNat) →
          ∀ rows : List DayHistory,
            rows.map (fun row => (row.key.day, row.slots)) =
              records.map (fun r => (r.day, r.slots)) →
            ∀ before,
              write rows ⟨before, none⟩ = (⟨before ++ bytes, none⟩, .ok rows.length)) := by
  refine ⟨fun rows before hdays => ?_, fun bytes => ⟨read_eq_error_iff, fun records hread => ?_⟩⟩
  · have htold : ∀ row ∈ rows, isTold row.key.day := fun row hrow =>
      decide_eq_true (hdays row hrow)
    obtain ⟨records, hrecords⟩ := exists_records_inOrder htold
    have hlength : records.length = rows.length := by
      have hlength := congrArg List.length hrecords
      rw [List.length_map, List.length_map, (inOrder_perm rows).length_eq] at hlength
      exact hlength.symm
    refine ⟨bytesOf records, records, inOrder rows, write_of_records hrecords before, ?_,
      read_eq_ok_iff.2 rfl, inOrder_perm rows, inOrder_pairwise rows, inOrder_stable rows, ?_⟩
    · rw [length_bytesOf, hlength]
      rfl
    · refine map_eq_of_records hrecords fun r row htells => ?_
      rw [htells.day_eq, htells.1, htells.2]
  · have hbytes := read_eq_ok_iff.1 hread
    refine ⟨?_, fun hwhole hordered rows hrows before => ?_⟩
    · rw [← hbytes]
      exact length_bytesOf records
    · have hrecords := records_of_map_eq hrows hwhole
      rw [← inOrder_of_pairwise (pairwise_of_map_eq hrows hordered)] at hrecords
      rw [← hbytes]
      exact write_of_records hrecords before

/-- Two rows of a day, with a row of the day before between them, are read back as they were
given; and what was read is written as the same bytes again. -/
theorem exports_read_back_two_rows_of_a_day :
    ∃ (day : Day) (rows ordered : List DayHistory) (bytes : List UInt8) (records : List Record),
      rows.map (·.key.day) = [day, Day.epoch, day] ∧ rows.map (·.get 5) = [7, 8, 9] ∧
      write rows .unbounded = (⟨bytes, none⟩, .ok 3) ∧ bytes.length = 8652 ∧
      read bytes = .ok records ∧
      (records.filter (·.day = day)).map (·.slots) =
        (rows.filter (·.key.day = day)).map (·.slots) ∧
      ordered.map (fun row => (row.key.day, row.slots)) = records.map (fun r => (r.day, r.slots)) ∧
      write ordered .unbounded = (⟨bytes, none⟩, .ok ordered.length) := by
  let day : Day := ⟨1, by decide⟩
  let row (day : Day) (value : UInt16) : DayHistory := .single ⟨default, default, day⟩ 5 value
  let rows := [row day 7, row Day.epoch 8, row day 9]
  have hdays : ∀ row ∈ rows, Day.epoch ≤ row.key.day ∧ row.key.day ≤ lastTold := by
    intro row hrow
    have hday : row.key.day = day ∨ row.key.day = Day.epoch := by
      rcases List.mem_cons.1 hrow with rfl | hrow
      · exact .inl rfl
      rcases List.mem_cons.1 hrow with rfl | hrow
      · exact .inr rfl
      obtain rfl := List.mem_singleton.1 hrow
      exact .inl rfl
    rcases hday with hday | hday <;> rw [hday] <;> decide
  obtain ⟨hwrites, hreads⟩ := exports_read_back
  obtain ⟨bytes, records, ordered, hwrite, hlength, hread, _, hpairwise, hstable, hmap⟩ :=
    hwrites rows [] hdays
  have hsame : ordered.map (fun row => (row.key.day, row.slots)) =
      records.map (fun r => (r.day, r.slots)) := by
    have hsame := congrArg (List.map fun told => (told.1, told.2.2)) hmap
    rw [List.map_map, List.map_map] at hsame
    exact hsame.symm
  have hfirst := congrArg
    (fun told => (told.filter fun told => told.1 = day).map fun told => told.2.2) hmap
  have htimes := congrArg (List.map fun told => told.2.1) hmap
  simp only [List.filter_map, List.map_map, Function.comp_def] at hfirst htimes
  have hwhole : ∀ r ∈ records, r.timestamp.toNat % 86400 = 0 := by
    intro r hr
    have hmem : (r.timestamp.toNat : Int) ∈ records.map fun r => (r.timestamp.toNat : Int) :=
      List.mem_map.2 ⟨r, hr, rfl⟩
    rw [htimes] at hmem
    obtain ⟨row, _, hrow⟩ := List.mem_map.1 hmem
    omega
  have hordered : records.Pairwise fun a b => a.timestamp.toNat ≤ b.timestamp.toNat := by
    have htimes' : (records.map fun r => (r.timestamp.toNat : Int)).Pairwise (· ≤ ·) := by
      rw [htimes, List.pairwise_map]
      refine hpairwise.imp fun {a b} hle => ?_
      have hle : a.key.day.number ≤ b.key.day.number := hle
      omega
    rw [List.pairwise_map] at htimes'
    exact htimes'.imp fun hle => by omega
  have hvalue (day : Day) (value : UInt16) : (row day value).get 5 = value := by
    have hminute : 5 < minutesPerDay := by decide
    simp [row, DayHistory.single, DayHistory.set, DayHistory.get, hminute]
  refine ⟨day, rows, ordered, bytes, records, rfl, ?_, hwrite, hlength, hread, ?_, hsame,
    (hreads bytes).2 records hread |>.2 hwhole hordered ordered hsame []⟩
  · simp only [rows, List.map_cons, List.map_nil, hvalue]
  · rw [hfirst, hstable]

end Export

end PeerWatch
