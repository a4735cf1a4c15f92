import PeerWatch.Proofs.Exclusion
import PeerWatch.Proofs.Readback

/-!
# What a store knows of its targets

Of each target a store keeps whether the last probe succeeded, and when and how fast the
last success was.  Last means last in the order of recording, whatever the clocks of the
probes said.  A record writes this into the row of its target, if there is one, and its
slot into the history in any case; it makes no row, takes none away, and leaves the rest
of the row as it was.

* `Target.after`, `TargetRow.after` — a row after some outcomes;
* `Backend.Took` — batches that a store took, one after another;
* `Backend.Took.targetsAfter`, `Backend.Took.day?` — what became of rows and of days;
* `Backend.last_record_wins`.
-/

namespace PeerWatch

open Calendar

/-- The last success among some outcomes. -/
def lastSuccess? (os : List Outcome) : Option Outcome := (os.filter (·.isSuccess)).getLast?

/-- The outcomes that some records tell of a target. -/
def outcomesFor (id : TargetId) (rs : List OutcomeRecord) : List Outcome :=
  (rs.filter (·.outcome.target = id)).map (·.outcome)

/-- The target after some outcomes. -/
def Target.after (os : List Outcome) (t : Target) : Target :=
  { t with lastProbeOk := (os.getLast?.map (·.isSuccess)).or t.lastProbeOk
           lastSuccessAt := ((lastSuccess? os).map (·.capturedAt)).or t.lastSuccessAt
           lastLatency := ((lastSuccess? os).map (·.latency)).or t.lastLatency }

/-- The raw row of a target after some outcomes. -/
def TargetRow.after (os : List Outcome) (row : TargetRow) : TargetRow :=
  { row with
    lastProbeOk := (os.getLast?.map fun o => if o.isSuccess then 1 else 0).or row.lastProbeOk
    lastSuccessAt := ((lastSuccess? os).map (·.capturedAt.toMillis)).or row.lastSuccessAt
    lastLatency := ((lastSuccess? os).map fun o => (o.latency.toNat : Int)).or row.lastLatency }

section Outcomes

/-- A success at the end is the last one. -/
theorem lastSuccess?_append_success (os : List Outcome) {o : Outcome} (h : o.isSuccess) :
    lastSuccess? (os ++ [o]) = some o := by
  simp [lastSuccess?, List.filter_append, h]

/-- A failure at the end leaves the last success what it was. -/
theorem lastSuccess?_append_failure (os : List Outcome) {o : Outcome} (h : o.isSuccess = false) :
    lastSuccess? (os ++ [o]) = lastSuccess? os := by
  simp [lastSuccess?, List.filter_append, h]

/-- A change that leaves it open whether an outcome is a success keeps the last one. -/
theorem lastSuccess?_map {f : Outcome → Outcome} (hf : ∀ o, (f o).isSuccess = o.isSuccess)
    (os : List Outcome) : lastSuccess? (os.map f) = (lastSuccess? os).map f := by
  have hsame : (fun o : Outcome => o.isSuccess) ∘ f = fun o => o.isSuccess := funext hf
  rw [lastSuccess?, lastSuccess?, List.filter_map, hsame, List.getLast?_map]

/-- The last success is one of the outcomes, and a success. -/
theorem mem_of_lastSuccess? {os : List Outcome} {o : Outcome} (h : lastSuccess? os = some o) :
    o ∈ os ∧ o.isSuccess :=
  List.mem_filter.1 (List.mem_of_getLast? h)

/-- One more outcome is noted in the target after the others. -/
theorem Target.recorded_after (os : List Outcome) (o : Outcome) (t : Target) :
    (t.after os).recorded o = t.after (os ++ [o]) := by
  unfold recorded after
  cases hkind : o.isSuccess with
  | true => simp [lastSuccess?_append_success os hkind, hkind]
  | false => simp [lastSuccess?_append_failure os hkind, hkind]

/-- One more outcome is noted in the row after the others. -/
theorem TargetRow.recorded_after (os : List Outcome) (o : Outcome) (row : TargetRow) :
    (row.after os).recorded o = row.after (os ++ [o]) := by
  unfold recorded after
  cases hkind : o.isSuccess with
  | true => simp [lastSuccess?_append_success os hkind, hkind]
  | false => simp [lastSuccess?_append_failure os hkind, hkind]

end Outcomes

namespace Hand

variable {τ ρ κ δ : Type} (h : Hand τ ρ κ δ)

/-- **The last record wins.**  Noting outcomes one after another comes to what is there
after them, if noting one more outcome does. -/
theorem noteAll_eq_after {after : List Outcome → ρ → ρ} (hnil : ∀ row, after [] row = row)
    (hstep : ∀ os o row, h.note o (after os row) = after (os ++ [o]) row)
    (rs : List OutcomeRecord) (row : ρ) :
    h.noteAll rs row = after (rs.map (·.outcome)) row := by
  have hfrom : ∀ os, h.noteAll rs (after os row) = after (os ++ rs.map (·.outcome)) row := by
    induction rs with
    | nil =>
        intro os
        rw [List.map_nil, List.append_nil]
        rfl
    | cons r rest ih =>
        intro os
        have hfirst : h.noteAll (r :: rest) (after os row) =
            h.noteAll rest (h.note r.outcome (after os row)) := rfl
        rw [hfirst, hstep, ih, List.map_cons, List.append_assoc]
        rfl
  have hall := hfrom []
  rwa [hnil, List.nil_append] at hall

end Hand

/-- What a batch makes of a target in memory is what its outcomes make of it. -/
theorem ledgerHand_noteAll (rs : List OutcomeRecord) (t : Target) :
    ledgerHand.noteAll rs t = t.after (rs.map (·.outcome)) :=
  ledgerHand.noteAll_eq_after (fun _ => rfl) Target.recorded_after rs t

/-- What a batch makes of a row is what its outcomes make of it. -/
theorem databaseHand_noteAll (rs : List OutcomeRecord) (row : TargetRow) :
    databaseHand.noteAll rs row = row.after (rs.map (·.outcome)) :=
  databaseHand.noteAll_eq_after (fun _ => rfl) TargetRow.recorded_after rs row

/-- What a row tells after some outcomes whose moments can be told in milliseconds. -/
theorem TargetRow.decode_after {row : TargetRow} {t : Target} (hrow : row.decode = .ok t)
    (os : List Outcome) (keep : Outcome → Outcome)
    (hkind : ∀ o, (keep o).isSuccess = o.isSuccess) (hlatency : ∀ o, (keep o).latency = o.latency)
    (hmoment : ∀ o ∈ os, o.isSuccess →
      decodeMillis o.capturedAt.toMillis = .ok (keep o).capturedAt) :
    (row.after os).decode = .ok (t.after (os.map keep)) := by
  obtain ⟨hid, haddress, hmode, hclaimed, hsuccess, hms, hok⟩ := decode_eq_ok_iff.1 hrow
  refine decode_eq_ok_iff.2 ⟨hid, haddress, hmode, hclaimed, ?_, ?_, ?_⟩
  · simp only [after, Target.after, lastSuccess?_map hkind]
    cases hlast : lastSuccess? os with
    | none => exact hsuccess
    | some o =>
        obtain ⟨ho, hsucceeded⟩ := mem_of_lastSuccess? hlast
        simp only [Option.map_some, Option.some_or, decodeOptional, hmoment o ho hsucceeded]
        rfl
  · simp only [after, Target.after, lastSuccess?_map hkind]
    cases hlast : lastSuccess? os with
    | none => exact hms
    | some o =>
        simp only [Option.map_some, Option.some_or, hlatency]
        exact decodeOptional_latency t.id (some o.latency)
  · simp only [after, Target.after, List.getLast?_map]
    cases os.getLast? with
    | none => exact hok
    | some o =>
        simp only [Option.map_some, Option.some_or, hkind]
        cases o.isSuccess <;> rfl

/-- A row that was read is that of the key it was read for. -/
theorem DayHistory.key_of_ofBlob? {key : HistoryKey} {blob : List UInt8} {row : DayHistory}
    (h : ofBlob? key blob = some row) : row.key = key := by
  obtain ⟨words, -, hwords⟩ := Option.bind_eq_some_iff.1 h
  obtain ⟨slots, -, rfl⟩ := Option.map_eq_some_iff.1 hwords
  rfl

namespace Backend

/-- Batches that a store took one after another, with all their records. -/
inductive Took (start : Backend) : List OutcomeRecord → Backend → Prop
  | nil : Took start [] start
  | batch {rs batch : List OutcomeRecord} {b b' : Backend} {report : BatchReport} :
      Took start rs b → b.record batch = (b', .ok report) → Took start (rs ++ batch) b'

/-- Every row of a target tells what it told and the outcomes of its target, and there are
no other rows than there were. -/
inductive TargetsAfter (rs : List OutcomeRecord) : Backend → Backend → Prop
  | ledger {l l' : Ledger}
      (h : l'.targets = l.targets.mapValues fun id t => t.after (outcomesFor id rs)) :
      TargetsAfter rs (.ledger l) (.ledger l')
  | database {db db' : Database}
      (h : db'.targets = db.targets.map fun table =>
        { table with rows := table.rows.mapValues fun key row =>
            row.after ((rs.filter (·.outcome.target.bytes = key)).map (·.outcome)) }) :
      TargetsAfter rs (.database db) (.database db')

/-- The history that is kept of a day, if there is one that can be read. -/
def day? (key : HistoryKey) : Backend → Option DayHistory
  | .ledger l => l.history.find? key
  | .database db =>
    (db.sheets.history.find? (HistoryRowKey.ofKey key)).bind (DayHistory.ofBlob? key)

/-- The outcome with its moment as a store keeps it. -/
def keptOutcome (b : Backend) (o : Outcome) : Outcome := { o with capturedAt := b.kept o.capturedAt }

variable {b b' : Backend} {rs : List OutcomeRecord}

/-- What was taken in batches is entered as if it were one. -/
theorem Took.entered (h : b.Took rs b') : ∃ report, Entered rs report b b' := by
  induction h with
  | nil => exact ⟨.zero, .nil b⟩
  | batch _ hrecord ih =>
      obtain ⟨report, hentered⟩ := ih
      exact ⟨_, hentered.append (.of_record hrecord)⟩

/-- **The rows of targets** after some batches. -/
theorem Took.targetsAfter (h : b.Took rs b') : b.TargetsAfter rs b' := by
  obtain ⟨report, hentered⟩ := h.entered
  cases hentered with
  | @ledger l l' hsheets =>
      have htargets : l'.targets = (ledgerHand.enterAll rs l.sheets).1.targets :=
        congrArg Sheets.targets hsheets
      refine .ledger (Table.ext_find? fun id => ?_)
      rw [htargets, ledgerHand.find?_targets_enterAll, Table.find?_mapValues]
      exact congrArg (Option.map · (l.targets.find? id)) (funext fun t => ledgerHand_noteAll _ t)
  | @database db hthere =>
      refine .database ?_
      cases htable : db.targets with
      | none => simp only [Database.withSheets, htable, Option.map_none]
      | some table =>
          have hrows : (databaseHand.enterAll rs db.sheets).1.targets =
              table.rows.mapValues fun key row =>
                row.after ((rs.filter (·.outcome.target.bytes = key)).map (·.outcome)) := by
            refine Table.ext_find? fun key => ?_
            rw [databaseHand.find?_targets_enterAll, Database.sheets_targets htable,
              Table.find?_mapValues]
            exact congrArg (Option.map · (table.rows.find? key))
              (funext fun row => databaseHand_noteAll _ row)
          simp only [Database.withSheets, htable, Option.map_some, hrows]

/-- Raw days are written as the days that are read from them. -/
theorem ofBlob?_writeAll {key : HistoryKey} (hrs : ∀ r ∈ rs, r.slot.key = key)
    (blob? : Option (List UInt8)) :
    (databaseHand.writeAll rs blob?).bind (DayHistory.ofBlob? key) =
      ledgerHand.writeAll rs (blob?.bind (DayHistory.ofBlob? key)) := by
  induction rs generalizing blob? with
  | nil => rfl
  | cons r rest ih =>
      obtain rfl := hrs r List.mem_cons_self
      have hkey : ∀ row, blob?.bind (DayHistory.ofBlob? r.slot.key) = some row →
          row.key = r.slot.key := by
        intro row hrow
        obtain ⟨blob, -, hrow⟩ := Option.bind_eq_some_iff.1 hrow
        exact DayHistory.key_of_ofBlob? hrow
      let written := DayHistory.write r.slot (blob?.bind (DayHistory.ofBlob? r.slot.key))
      have hread : DayHistory.ofBlob? r.slot.key written.toBlob = some written := by
        rw [DayHistory.ofBlob?_toBlob, ← DayHistory.key_write hkey]
      have hrest := ih (fun r' hr' => hrs r' (List.mem_cons_of_mem _ hr')) (some written.toBlob)
      rw [Option.bind_some, hread] at hrest
      exact hrest

/-- **The days** after some batches, whether or not the targets of the records are known. -/
theorem Took.day? (h : b.Took rs b') (key : HistoryKey) :
    b'.day? key = ledgerHand.writeAll (rs.filter (·.slot.key = key)) (b.day? key) := by
  obtain ⟨report, hentered⟩ := h.entered
  cases hentered with
  | @ledger l l' hsheets =>
      have hhistory : l'.history = (ledgerHand.enterAll rs l.sheets).1.history :=
        congrArg Sheets.history hsheets
      show l'.history.find? key = _
      rw [hhistory, ledgerHand.find?_history_enterAll]
      rfl
  | @database db hthere =>
      have hfilter : (rs.filter fun r => HistoryRowKey.ofKey r.slot.key = HistoryRowKey.ofKey key) =
          rs.filter (·.slot.key = key) := by
        refine List.filter_congr fun r _ => decide_eq_decide.2 ?_
        exact ⟨HistoryRowKey.ofKey_injective, congrArg HistoryRowKey.ofKey⟩
      have hkeys : ∀ r ∈ rs.filter (·.slot.key = key), r.slot.key = key := fun r hr =>
        of_decide_eq_true (List.mem_filter.1 hr).2
      show ((Database.sheets _).history.find? _).bind _ = _
      rw [Database.sheets_entered hthere, databaseHand.find?_history_enterAll]
      exact (congrArg (fun rs => (databaseHand.writeAll rs _).bind _) hfilter).trans
        (ofBlob?_writeAll hkeys _)

/-- A store shows a target that it had, with the outcomes that were told of it. -/
theorem TargetsAfter.target? (h : b.TargetsAfter rs b') {id : TargetId} {t : Target}
    (ht : b.target? id = .ok (some t))
    (hmoments : b.Tells (.record (rs.filter (·.outcome.target = id)))) :
    b'.target? id = .ok (some (t.after ((outcomesFor id rs).map b.keptOutcome))) := by
  cases h with
  | @ledger l l' h =>
      have hfound : l.targets.find? id = some t := Except.ok.inj ht
      have hkept : (outcomesFor id rs).map (Backend.ledger l).keptOutcome = outcomesFor id rs :=
        List.map_id _
      show Except.ok (l'.targets.find? id) = _
      rw [h, Table.find?_mapValues, hfound, hkept]
      rfl
  | @database db db' h =>
      have ht : db.target? id = .ok (some t) := ht
      unfold Database.target? at ht
      cases htable : db.targets with
      | none =>
          rw [htable] at ht
          cases ht
      | some table =>
          cases hfound : table.rows.find? id.bytes with
          | none =>
              simp only [htable, hfound, Except.ok.injEq, reduceCtorEq] at ht
          | some row =>
              simp only [htable, hfound] at ht
              have hrow : row.decode = .ok t := by
                cases hdecode : row.decode with
                | error e =>
                    rw [hdecode] at ht
                    cases ht
                | ok t' =>
                    rw [hdecode] at ht
                    rw [Option.some.inj (Except.ok.inj ht)]
              have hids : (rs.filter (·.outcome.target.bytes = id.bytes)).map (·.outcome) =
                  outcomesFor id rs := by
                refine congrArg _ (List.filter_congr fun r _ => decide_eq_decide.2 ?_)
                exact ⟨TargetId.eq_of_bytes_eq, congrArg TargetId.bytes⟩
              have hkept : ∀ o ∈ outcomesFor id rs, o.isSuccess →
                  decodeMillis o.capturedAt.toMillis =
                    .ok ((Backend.database db).keptOutcome o).capturedAt := by
                intro o ho hsucceeded
                obtain ⟨r, hr, rfl⟩ := List.mem_map.1 ho
                obtain ⟨moment, hmoment⟩ := Option.isSome_iff_exists.1 (hmoments r hr hsucceeded)
                rw [decodeMillis_eq_ok_iff, keptOutcome, kept, hmoment]
                rfl
              have hafter := TargetRow.decode_after hrow (outcomesFor id rs)
                (Backend.database db).keptOutcome (fun _ => rfl) (fun _ => rfl) hkept
              show Database.target? db' id = _
              unfold Database.target?
              rw [h, htable]
              simp only [Option.map_some, Table.find?_mapValues, hfound, hids, hafter]
              rfl

/-- Records make no target known and none unknown. -/
theorem TargetsAfter.target?_eq_none_iff (h : b.TargetsAfter rs b') (id : TargetId) :
    b'.target? id = .ok none ↔ b.target? id = .ok none := by
  cases h with
  | @ledger l l' h =>
      show Except.ok (l'.targets.find? id) = _ ↔ Except.ok (l.targets.find? id) = _
      rw [h, Table.find?_mapValues, Except.ok.injEq, Except.ok.injEq, Option.map_eq_none_iff]
  | @database db db' h =>
      have hread : ∀ row : TargetRow, row.decode.map some ≠ .ok none := by
        intro row
        cases row.decode with
        | error e => exact fun heq => by cases heq
        | ok t => exact fun heq => by cases heq
      show Database.target? db' id = _ ↔ Database.target? db id = _
      unfold Database.target?
      rw [h]
      cases db.targets with
      | none => rfl
      | some table =>
          simp only [Option.map_some, Table.find?_mapValues]
          cases table.rows.find? id.bytes with
          | none => rfl
          | some row => simp only [Option.map_some, hread]

/-- **The last record wins.**  After any batches that a store took, a target that had a row
tells whether the last record of it was a success, and moment and latency of the last
success among its records, and for the rest what it told before.  No target becomes known
and none unknown; the records of unknown ones are in the history as all others are. -/
theorem last_record_wins (h : b.Took rs b') :
    b.TargetsAfter rs b' ∧
    (∀ id, b'.target? id = .ok none ↔ b.target? id = .ok none) ∧
    (∀ id t, b.target? id = .ok (some t) →
      b.Tells (.record (rs.filter (·.outcome.target = id))) →
      b'.target? id = .ok (some (t.after ((outcomesFor id rs).map b.keptOutcome)))) ∧
    (∀ key, (b'.day? key).isSome ↔ (b.day? key).isSome ∨ ∃ r ∈ rs, r.slot.key = key) ∧
    ∀ key m, (∀ r ∈ rs, r.slot.minute < minutesPerDay) →
      DayHistory.readingOf (b'.day? key) m =
        match (rs.filter fun r => r.slot.key = key ∧ r.slot.minute = m).getLast? with
        | some r => Slot.read r.slot.value
        | none => DayHistory.readingOf (b.day? key) m := by
  have htargets := h.targetsAfter
  refine ⟨htargets, htargets.target?_eq_none_iff, fun id t => htargets.target?, ?_, ?_⟩
  · intro key
    rw [h.day? key, isSome_writeAll, ne_eq, List.filter_eq_nil_iff]
    simp
  · intro key m hminutes
    have hminutes' : ∀ r ∈ rs.filter (·.slot.key = key), r.slot.minute < minutesPerDay :=
      fun r hr => hminutes r (List.mem_filter.1 hr).1
    have hreading := readingOf_writeAll hminutes' (b.day? key) m
    have hfilter : (rs.filter (·.slot.key = key)).filter (·.slot.minute = m) =
        rs.filter fun r => r.slot.key = key ∧ r.slot.minute = m := by
      rw [List.filter_filter]
      exact List.filter_congr fun r _ => by simp [and_comm]
    rw [hfilter, ← h.day? key] at hreading
    exact hreading

/-- A success, an older one and a failure are recorded in this order, with an outcome of a
target that is not known in between: the older success shows. -/
theorem last_record_wins_older_capture :
    ∃ (b b' : Backend) (rs : List OutcomeRecord) (t : Target) (newer older : Instant),
      compare older newer = .lt ∧ b.Took rs b' ∧
      (outcomesFor default rs).map (fun o => (o.isSuccess, o.capturedAt)) =
        [(true, newer), (true, older), (false, newer)] ∧
      b'.target? default = .ok (some t) ∧ t.lastProbeOk = some false ∧
      t.lastSuccessAt = some older ∧ t.lastLatency = some 9 ∧
      ∃ r ∈ rs, b'.target? r.outcome.target = .ok none ∧ (b'.day? r.slot.key).isSome := by
  let other : TargetId := ⟨List.replicate 32 1, rfl⟩
  let newer : Instant := ⟨120, 0, by decide, by decide⟩
  let l : Ledger := Ledger.empty.put (.fresh default "peer:1" .ping)
  let first := recordsOf .nil [⟨default, newer, 7, none⟩, ⟨other, newer, 8, none⟩]
  let second := recordsOf .nil
    [⟨default, default, 9, none⟩, ⟨default, newer, 0, some ⟨.fatal, "late"⟩⟩]
  have htakes : ∀ (l : Ledger) (rs : List OutcomeRecord), l.faultyRow = none →
      (Backend.ledger l).record rs =
        (.ledger (l.entered rs), .ok (ledgerHand.enterAll rs l.sheets).2) := fun l rs hfree =>
    congrArg (fun done => (Backend.ledger done.1, done.2)) (Ledger.record_of_no_fault hfree rs)
  have htook : (Backend.ledger l).Took (first ++ second)
      (.ledger ((l.entered first).entered second)) :=
    .batch (.batch .nil (htakes l first rfl)) (htakes (l.entered first) second rfl)
  obtain ⟨-, hunknown, hknown, hdays, -⟩ := last_record_wins htook
  have hmem : OutcomeRecord.ofOutcome .nil ⟨other, newer, 8, none⟩ ∈ first ++ second := by decide
  refine ⟨_, _, first ++ second, _, newer, default, by decide, htook, by decide,
    hknown default (.fresh default "peer:1" .ping) (by rfl) trivial, by decide, by decide,
    by decide, _, hmem, ?_, ?_⟩
  · exact (hunknown other).2 (by rfl)
  · exact (hdays _).2 (.inr ⟨_, hmem, rfl⟩)

end Backend

end PeerWatch
