import PeerWatch.Proofs.Exports

/-!
# Exports that fail

Two things may end an export before its time: a day that no record can tell, and a sink
that has no room left.  Which of them does is a matter of where they stand in the bytes.
The rows up to the first day that cannot be told, as they stand in order, are to be
written; if the sink has room for all their records, it has these and nothing of the row
that follows, and if it has not, it has as many of their bytes as there was room for, which
may end within a record.

* `Export.exists_told_append` — the rows that come before the first day that cannot be told;
* `Export.Sink.put_of_le`, `Export.Sink.put_of_lt` — a sink with room, and one without;
* `Export.write_limited` — what becomes of the rows;
* `Export.failing_export_leaves_a_prefix`.
-/

namespace PeerWatch.Export

open Calendar

/-- Some rows can be told, and the first that follows them cannot. -/
theorem exists_told_append (rows : List DayHistory) :
    ∃ told rest, rows = told ++ rest ∧ (∀ row ∈ told, isTold row.key.day) ∧
      ∀ row ∈ rest.head?, isTold row.key.day = false := by
  refine ⟨rows.takeWhile (isTold ·.key.day), rows.dropWhile (isTold ·.key.day),
    List.takeWhile_append_dropWhile.symm, List.all_eq_true.1 List.all_takeWhile, ?_⟩
  intro row hrow
  have hhead := List.head?_dropWhile_not (isTold ·.key.day) rows
  rw [Option.mem_def.1 hrow] at hhead
  simpa using hhead

namespace Sink

variable {bytes : List UInt8} {room : Nat}

/-- What there is room for is put in whole. -/
theorem put_of_le (h : bytes.length ≤ room) (before : List UInt8) :
    put ⟨before, some room⟩ bytes = (⟨before ++ bytes, some (room - bytes.length)⟩, true) :=
  if_pos h

/-- Of what there is no room for, the beginning is put in and fills the sink. -/
theorem put_of_lt (h : room < bytes.length) (before : List UInt8) :
    put ⟨before, some room⟩ bytes = (⟨before ++ bytes.take room, some 0⟩, false) :=
  if_neg (Nat.not_le_of_lt h)

end Sink

/-- **Rows that stand in order,** some of which have their records and the next of which has
a day that cannot be told, are put into a sink with so much room. -/
theorem write_limited {rows told rest : List DayHistory} {records : List Record}
    (hrows : inOrder rows = told ++ rest) (hrecords : told.map Record.ofRow = records.map .ok)
    (hrest : ∀ row ∈ rest.head?, isTold row.key.day = false) (before : List UInt8) (room : Nat) :
    write rows ⟨before, some room⟩ =
      if room < (bytesOf records).length then
        (⟨before ++ (bytesOf records).take room, some 0⟩, .error .sinkFull)
      else
        (⟨before ++ bytesOf records, some (room - (bytesOf records).length)⟩,
          match rest.head? with
          | some row => .error (.dayOutOfRange row.key.day)
          | none => .ok rows.length) := by
  have hwritten := writeRows_append_of_records ⟨before, some room⟩ hrecords rest
  rw [write, hrows, hwritten]
  by_cases hroom : room < (bytesOf records).length
  · rw [Sink.put_of_lt hroom, if_pos hroom]
    rfl
  · rw [Sink.put_of_le (Nat.le_of_not_lt hroom), if_neg hroom]
    cases rest with
    | nil => rfl
    | cons row rest =>
        have hrow : isTold row.key.day = false := hrest row rfl
        simp only [if_true, writeRows_cons_of_untold _ hrow, List.head?_cons]

/-- **An export that fails leaves an exact prefix.**  Take any rows, in the order of their
days and those of one day in the order they were given in, up to the first whose day no
record can tell; these rows have their records, each with the second that its day begins at
and with the slots.  A sink that takes so many bytes and no more is too small for the bytes
of these records, and then it is full and has the first so many of them; or it has all of
them, a whole number of records, and then the answer is the day that cannot be told, or the
number of rows if there is no such day. -/
theorem failing_export_leaves_a_prefix (rows : List DayHistory) (before : List UInt8)
    (room : Nat) :
    ∃ (told rest : List DayHistory) (records : List Record),
      (told ++ rest).Perm rows ∧ (told ++ rest).Pairwise (fun a b => a.key.day ≤ b.key.day) ∧
      (∀ day, (told ++ rest).filter (·.key.day = day) = rows.filter (·.key.day = day)) ∧
      (∀ row ∈ told, Day.epoch ≤ row.key.day ∧ row.key.day ≤ lastTold) ∧
      (∀ row ∈ rest.head?, ¬ (Day.epoch ≤ row.key.day ∧ row.key.day ≤ lastTold)) ∧
      records.map (fun r => ((r.timestamp.toNat : Int), r.slots)) =
        told.map (fun row => (row.key.day.number * 86400, row.slots)) ∧
      (bytesOf records).length = 2884 * told.length ∧ read (bytesOf records) = .ok records ∧
      write rows ⟨before, some room⟩ =
        if room < (bytesOf records).length then
          (⟨before ++ (bytesOf records).take room, some 0⟩, .error .sinkFull)
        else
          (⟨before ++ bytesOf records, some (room - (bytesOf records).length)⟩,
            match rest.head? with
            | some row => .error (.dayOutOfRange row.key.day)
            | none => .ok rows.length) := by
  obtain ⟨told, rest, hrows, htold, hrest⟩ := exists_told_append (inOrder rows)
  obtain ⟨records, hrecords⟩ := exists_records htold
  have htells := map_eq_of_records hrecords
    (f := fun row => (row.key.day.number * 86400, row.slots))
    (g := fun r => ((r.timestamp.toNat : Int), r.slots))
    fun r row htells => by rw [htells.1, htells.2]
  have hlength : records.length = told.length := by
    have hlength := congrArg List.length htells
    rwa [List.length_map, List.length_map] at hlength
  refine ⟨told, rest, records, ?_, ?_, ?_, fun row hrow => of_decide_eq_true (htold row hrow),
    fun row hrow => of_decide_eq_false (hrest row hrow), htells, ?_, read_eq_ok_iff.2 rfl,
    write_limited hrows hrecords hrest before room⟩
  · exact hrows ▸ inOrder_perm rows
  · exact hrows ▸ inOrder_pairwise rows
  · exact hrows ▸ inOrder_stable rows
  · rw [length_bytesOf, hlength]
    rfl

end PeerWatch.Export
