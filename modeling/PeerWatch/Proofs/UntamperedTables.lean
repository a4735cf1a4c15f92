import PeerWatch.Proofs.Atomicity
import PeerWatch.Proofs.Histories
import PeerWatch.Proofs.Interleavings

/-!
# Tables that nobody tampered with

What the operations of a store write is what they can read.  Identities, modes,
moments, latencies, days and slots go into a database as numbers, texts and
byte strings, each by a conversion of its own, and come back by another one;
the tables are followed here through everything that a session can be asked.

* `TargetRow.MakesSense` — a raw row every value of which can be read;
* `Database.IsUntampered` — tables as the operations leave them, with the
  records that were given;
* `IsUntampered.enterAll`, `.upsert`, `.claim`, `.migrate` — what keeps them so;
* `IsUntampered.statements` — **a call** of any kind succeeds on them.
-/

namespace PeerWatch

open Calendar

/-- Every value of the row can be read. -/
structure TargetRow.MakesSense (row : TargetRow) : Prop where
  id : row.id.length = TargetId.byteCount
  mode : ∃ mode : ProbeMode, row.mode = mode.name
  claimed : ∀ ms ∈ row.lastClaimedAt, (Instant.ofMillis? ms).isSome
  success : ∀ ms ∈ row.lastSuccessAt, (Instant.ofMillis? ms).isSome
  latency : ∀ ms ∈ row.lastLatency, 0 ≤ ms ∧ ms < 4294967296

section Reading

/-- Milliseconds that may be missing can be read if they tell a moment. -/
theorem isSome_of_decodeOptional {ms? : Option Int} {moment? : Option Instant}
    (h : decodeOptional decodeMillis ms? = .ok moment?) :
    ∀ ms ∈ ms?, (Instant.ofMillis? ms).isSome := by
  intro ms hms
  obtain rfl : ms? = some ms := hms
  rw [decodeOptional] at h
  cases hmoment : decodeMillis ms with
  | error e =>
      rw [hmoment] at h
      cases h
  | ok moment =>
      rw [decodeMillis_eq_ok_iff.1 hmoment]
      rfl

/-- A latency that may be missing can be read if it fits. -/
theorem bounds_of_decodeOptional {id : TargetId} {ms? : Option Int} {latency? : Option UInt32}
    (h : decodeOptional (decodeLatency id) ms? = .ok latency?) :
    ∀ ms ∈ ms?, 0 ≤ ms ∧ ms < 4294967296 := by
  intro ms hms
  obtain rfl : ms? = some ms := hms
  rw [decodeOptional, decodeLatency] at h
  split at h
  · next hbounds => exact hbounds
  · cases h

/-- A row that can be read makes sense. -/
theorem TargetRow.makesSense_of_decode {row : TargetRow} (h : ∃ t, row.decode = .ok t) :
    row.MakesSense := by
  obtain ⟨t, ht⟩ := h
  obtain ⟨hid, -, hmode, hclaimed, hsuccess, hlatency, -⟩ := decode_eq_ok_iff.1 ht
  exact
    { id := hid ▸ t.id.length_eq
      mode := ⟨t.mode, hmode.symm⟩
      claimed := isSome_of_decodeOptional hclaimed
      success := isSome_of_decodeOptional hsuccess
      latency := bounds_of_decodeOptional hlatency }

end Reading

/-- The targets can be read, and none is refused a write. -/
structure TargetTable.IsUntampered (table : TargetTable) : Prop where
  legible : table.IsLegible
  unhindered : table.refusals = []

/-- The rows are those of a history that was written with the given records, and
none is refused a write. -/
structure HistoryTable.IsUntampered (given : List OutcomeRecord) (table : HistoryTable) : Prop where
  typed : ∃ t : History, Table.Mirrors HistoryRowKey.ofKey DayHistory.toBlob table.rows t ∧
    t.Keyed DayHistory.key ∧ ∀ key, t.contains key → ∃ r ∈ given, r.slot.key = key
  unhindered : table.refusals = []

/-- **Tables as the operations of a store leave them,** with all records that they
were given. -/
structure Database.IsUntampered (given : List OutcomeRecord) (db : Database) : Prop where
  targets : ∀ table, db.targets = some table → table.IsUntampered
  history : ∀ table, db.history = some table → table.IsUntampered given
  /-- The version is recorded when both tables are there. -/
  migrated : Database.schemaVersion ≤ db.currentVersion → db.HasTables

section Tables

theorem TargetTable.isUntampered_empty : TargetTable.IsUntampered ⟨∅, []⟩ :=
  ⟨TargetTable.isLegible_empty [], rfl⟩

theorem HistoryTable.isUntampered_empty (given : List OutcomeRecord) :
    HistoryTable.IsUntampered given ⟨∅, []⟩ := by
  refine ⟨⟨∅, .empty, .empty, ?_⟩, rfl⟩
  intro key hkey
  cases hkey

/-- More may have been given than was written. -/
theorem HistoryTable.IsUntampered.mono {table : HistoryTable} {given given' : List OutcomeRecord}
    (h : table.IsUntampered given) (hgiven : given ⊆ given') : table.IsUntampered given' := by
  obtain ⟨⟨t, hmirrors, hkeyed, hwritten⟩, hfree⟩ := h
  refine ⟨⟨t, hmirrors, hkeyed, ?_⟩, hfree⟩
  intro key hkey
  obtain ⟨r, hr, hslot⟩ := hwritten key hkey
  exact ⟨r, hgiven hr, hslot⟩

/-- **A row of a day** is under the key of a record, whose day is read from the
text of the key, and has the bytes of a day. -/
theorem HistoryTable.IsUntampered.row {table : HistoryTable} {given : List OutcomeRecord}
    (h : table.IsUntampered given) {key : HistoryRowKey} {blob : List UInt8}
    (hfound : table.rows.find? key = some blob) :
    blob.length = 2 * minutesPerDay ∧ ∃ r ∈ given, key = HistoryRowKey.ofKey r.slot.key ∧
      Day.parse key.day = .ok r.slot.key.day := by
  obtain ⟨⟨t, hmirrors, -, hwritten⟩, -⟩ := h
  have hcontains : table.rows.contains key := by simp [Table.contains, hfound]
  obtain ⟨key', rfl⟩ := hmirrors.keys key hcontains
  rw [hmirrors.find] at hfound
  obtain ⟨row, hrow, rfl⟩ := Option.map_eq_some_iff.1 hfound
  obtain ⟨r, hr, rfl⟩ := hwritten key' (by simp [Table.contains, hrow])
  exact ⟨row.length_toBlob, r, hr, rfl, Day.parse_text r.slot.key.day⟩

/-- An outcome noted in the row of its target leaves rows that can be read. -/
theorem TargetTable.IsUntampered.noted {table : TargetTable} (h : table.IsUntampered) {o : Outcome}
    (ho : o.capturedAt.HasMillis) :
    TargetTable.IsUntampered
      { table with rows := table.rows.modify o.target.bytes (·.recorded o) } where
  legible :=
    { keyed := h.legible.keyed.modify fun row => by
        show (row.recorded o).unprobed.id = row.unprobed.id
        rw [TargetRow.unprobed_recorded]
      decode := by
        intro key row hfound
        rw [Table.find?_modify] at hfound
        split at hfound
        · obtain ⟨row', hrow', rfl⟩ := Option.map_eq_some_iff.1 hfound
          exact TargetRow.decode_recorded (h.legible.decode key row' hrow') fun _ => ho
        · exact h.legible.decode key row hfound }
  unhindered := h.unhindered

/-- A slot written into the row of its day leaves the rows of a history. -/
theorem HistoryTable.IsUntampered.written {table : HistoryTable} {given : List OutcomeRecord}
    (h : table.IsUntampered given) (r : OutcomeRecord) :
    HistoryTable.IsUntampered (given ++ [r]) { table with
      rows := table.rows.insert (HistoryRowKey.ofKey r.slot.key)
        (databaseHand.write r.slot (table.rows.find? (HistoryRowKey.ofKey r.slot.key))) } := by
  obtain ⟨⟨t, hmirrors, hkeyed, hwritten⟩, hfree⟩ := h
  refine ⟨⟨_, mirrors_write hmirrors r.slot, hkeyed.insert ?_, ?_⟩, hfree⟩
  · exact DayHistory.key_write fun row hrow => hkeyed _ row hrow
  · intro key hkey
    rw [Table.contains_insert, Bool.or_eq_true, decide_eq_true_eq] at hkey
    rcases hkey with rfl | hkey
    · exact ⟨r, by simp, rfl⟩
    · obtain ⟨r', hr', hslot⟩ := hwritten key hkey
      exact ⟨r', List.mem_append_left _ hr', hslot⟩

/-- A target that is put in leaves rows that can be read. -/
theorem TargetTable.IsUntampered.putIn {table : TargetTable} (h : table.IsUntampered) (t : Target) :
    TargetTable.IsUntampered { table with
      rows := table.rows.insert t.id.bytes
        (TargetRow.putIn t (table.rows.find? t.id.bytes)) } := by
  refine ⟨?_, h.unhindered⟩
  cases hfound : table.rows.find? t.id.bytes with
  | none =>
      have hread : ∃ t', (TargetRow.ofTarget t).decode = .ok t' :=
        ⟨.fresh t.id t.address t.mode,
          TargetRow.decode_eq_ok_iff.2 ⟨rfl, rfl, rfl, rfl, rfl, rfl, rfl⟩⟩
      exact h.legible.insert hread
  | some row =>
      have hkey : row.id = t.id.bytes := h.legible.keyed _ row hfound
      obtain ⟨told, htold⟩ := h.legible.decode _ row hfound
      obtain ⟨hid, -, -, hclaimed, hsuccess, hlatency, hok⟩ := TargetRow.decode_eq_ok_iff.1 htold
      have hread : ∃ t', (TargetRow.putIn t (some row)).decode = .ok t' :=
        ⟨{ told with address := t.address, mode := t.mode },
          TargetRow.decode_eq_ok_iff.2 ⟨hid, rfl, rfl, hclaimed, hsuccess, hlatency, hok⟩⟩
      rw [← hkey]
      exact h.legible.insert hread

end Tables

/-- The instants of a call are in no leap second. -/
def SessionCall.IsPlain : SessionCall → Prop
  | .store (.claim _ now) => now.isLeapSecond = false
  | .store (.record rs) => ∀ r ∈ rs, r.outcome.capturedAt.isLeapSecond = false
  | _ => True

/-- The records that a call brings. -/
def SessionCall.records : SessionCall → List OutcomeRecord
  | .store (.record rs) => rs
  | _ => []

namespace Database

variable {db : Database} {given : List OutcomeRecord}

/-- What is made of the result of work that succeeds. -/
theorem effect_map_of_ok {α β : Type} {work : Work α} {v : α} {left : Database}
    (h : effect work db = (.ok v, left)) (f : α → β) :
    effect (f <$> work) db = (.ok (f v), left) := by
  rw [effect_map, h]
  rfl

namespace IsUntampered

theorem mono {given' : List OutcomeRecord} (h : db.IsUntampered given) (hgiven : given ⊆ given') :
    db.IsUntampered given' :=
  ⟨h.targets, fun table htable => (h.history table htable).mono hgiven, h.migrated⟩

/-- An untampered database that has both tables has an untampered table of targets. -/
theorem exists_targets (h : db.IsUntampered given) (htables : db.HasTables) :
    ∃ table, db.targets = some table ∧ table.IsUntampered := by
  obtain ⟨table, htable⟩ := Option.isSome_iff_exists.1 htables.1
  exact ⟨table, htable, h.targets table htable⟩

/-- An untampered database that has both tables has an untampered table of histories. -/
theorem exists_history (h : db.IsUntampered given) (htables : db.HasTables) :
    ∃ table, db.history = some table ∧ table.IsUntampered given := by
  obtain ⟨table, htable⟩ := Option.isSome_iff_exists.1 htables.2
  exact ⟨table, htable, h.history table htable⟩

/-- Other targets in a table that is there. -/
theorem setTargets (h : db.IsUntampered given) (htables : db.HasTables) {table : TargetTable}
    (htable : table.IsUntampered) :
    IsUntampered given { db with targets := some table } where
  targets table' htable' := by
    obtain rfl := Option.some.inj htable'
    exact htable
  history := h.history
  migrated _ := ⟨rfl, htables.2⟩

/-- **One record** can be entered, and keeps the tables. -/
theorem enter (h : db.IsUntampered given) (htables : db.HasTables) {r : OutcomeRecord}
    (hr : r.outcome.capturedAt.HasMillis) :
    db.Accepts r ∧
      (db.withSheets (databaseHand.enter db.sheets r)).IsUntampered (given ++ [r]) := by
  obtain ⟨table, htable, htargets⟩ := h.exists_targets htables
  obtain ⟨days, hdays, hhistory⟩ := h.exists_history htables
  refine ⟨⟨?_, ?_⟩, ?_⟩
  · exact ⟨table, htable, fun _ => TargetTable.refuses_of_nil htargets.unhindered _ _⟩
  · obtain ⟨⟨t, hmirrors, -, -⟩, hfree⟩ := hhistory
    refine ⟨days, hdays, by simp [HistoryTable.refuses, hfree], ?_⟩
    intro blob hblob
    rw [hmirrors.find] at hblob
    obtain ⟨row, -, rfl⟩ := Option.map_eq_some_iff.1 hblob
    simp [DayHistory.ofBlob?_toBlob]
  · constructor
    · intro table' htable'
      simp only [withSheets, htable, Option.map_some, Option.some.injEq] at htable'
      rw [← htable', Hand.enter, sheets_targets htable]
      exact htargets.noted hr
    · intro days' hdays'
      simp only [withSheets, hdays, Option.map_some, Option.some.injEq] at hdays'
      rw [← hdays', Hand.enter, sheets_history hdays]
      exact hhistory.written r
    · exact fun _ => htables.withSheets _

/-- **A batch** can be entered, and keeps the tables. -/
theorem enterAll (h : db.IsUntampered given) (htables : db.HasTables) {rs : List OutcomeRecord}
    (hrs : ∀ r ∈ rs, r.outcome.capturedAt.HasMillis) :
    AcceptsAll rs db ∧
      (db.withSheets (databaseHand.enterAll rs db.sheets).1).IsUntampered (given ++ rs) ∧
      (db.withSheets (databaseHand.enterAll rs db.sheets).1).HasTables := by
  induction rs generalizing db given with
  | nil =>
      have hsame : db.withSheets (databaseHand.enterAll [] db.sheets).1 = db :=
        db.withSheets_sheets
      rw [hsame, List.append_nil]
      exact ⟨trivial, h, htables⟩
  | cons r rest ih =>
      obtain ⟨haccepts, hnext⟩ := h.enter htables (hrs r List.mem_cons_self)
      have hsheets : (db.withSheets (databaseHand.enter db.sheets r)).sheets =
          databaseHand.enter db.sheets r := htables.sheets_withSheets _
      obtain ⟨hrest, hleft, htables'⟩ := ih hnext (htables.withSheets _) fun r' hr' =>
        hrs r' (List.mem_cons_of_mem _ hr')
      rw [hsheets, withSheets_withSheets, List.append_assoc] at hleft
      rw [hsheets, withSheets_withSheets] at htables'
      exact ⟨⟨haccepts, hrest⟩, hleft, htables'⟩

/-- **Targets** can be put in, and keep the tables. -/
theorem upsert (h : db.IsUntampered given) (htables : db.HasTables) (ts : List Target) :
    ∃ left, effect (upsertWork ts) db = (.ok (), left) ∧ left.IsUntampered given ∧
      left.HasTables := by
  induction ts generalizing db with
  | nil => exact ⟨db, rfl, h, htables⟩
  | cons t rest ih =>
      obtain ⟨table, htable, htargets⟩ := h.exists_targets htables
      rw [effect_upsertWork_cons htable (TargetTable.refuses_of_nil htargets.unhindered _ _)]
      exact ih (h.setTargets htables (htargets.putIn t)) ⟨rfl, htables.2⟩

/-- **A claim** succeeds, and keeps the tables. -/
theorem claim (h : db.IsUntampered given) (htables : db.HasTables) {limit : Nat}
    (hlimit : limit ≠ 0) {now : Instant} (hnow : now.HasMillis) :
    ∃ ts left, effect (claimWork limit now) db = (.ok ts, left) ∧ left.IsUntampered given ∧
      left.HasTables := by
  obtain ⟨table, htable, hlegible, hfree⟩ := h.exists_targets htables
  obtain ⟨moment, hmoment⟩ := Option.isSome_iff_exists.1 hnow
  have hclaim := claim_of_accepted htable hlegible
    (fun id => TargetTable.refuses_of_nil hfree .claim id) hmoment limit
  unfold Database.claim at hclaim
  rw [if_neg hlimit] at hclaim
  refine ⟨_, _, Session.leave_transact_ok_iff.1 hclaim, ?_, ⟨rfl, htables.2⟩⟩
  exact h.setTargets htables ⟨hlegible.claim limit hnow, hfree⟩

/-- **A look at a target** succeeds. -/
theorem target? (h : db.IsUntampered given) (htables : db.HasTables) (id : TargetId) :
    ∃ t?, db.target? id = .ok t? := by
  obtain ⟨table, htable, htargets⟩ := h.exists_targets htables
  unfold Database.target?
  rw [htable]
  dsimp only
  cases hfound : table.rows.find? id.bytes with
  | none => exact ⟨none, rfl⟩
  | some row =>
      obtain ⟨t, ht⟩ := htargets.legible.decode _ row hfound
      dsimp only
      rw [ht]
      exact ⟨some t, rfl⟩

/-- **A look at a span of days** succeeds, whatever the days are. -/
theorem range (h : db.IsUntampered given) (htables : db.HasTables) (target : TargetId)
    (owner : OwnerId) (first last : Day) : ∃ rows, db.range target owner first last = .ok rows := by
  by_cases hspan : last < first
  · exact ⟨[], if_pos hspan⟩
  · obtain ⟨days, hdays, hhistory⟩ := h.exists_history htables
    obtain ⟨t, hmirrors, hkeyed, -⟩ := hhistory.typed
    obtain ⟨rows, hrows, -⟩ := range_of_mirrors hdays hmirrors hkeyed target owner hspan
    exact ⟨rows, hrows⟩

/-- **A call** of any kind succeeds, and keeps the tables. -/
theorem statements (h : db.IsUntampered given) (htables : db.HasTables) {call : SessionCall}
    (hcall : call.IsPlain) :
    ∃ v left, effect (Database.statements call) db = (.ok v, left) ∧
      left.IsUntampered (given ++ call.records) ∧ left.HasTables := by
  have hmore : given ⊆ given ++ call.records := List.subset_append_left _ _
  cases call with
  | store call =>
      cases call with
      | claim limit now =>
          by_cases hlimit : limit = 0
          · subst hlimit
            exact ⟨.claimed [], db, rfl, h.mono hmore, htables⟩
          · obtain ⟨ts, left, hwork, hleft, htables'⟩ :=
              h.claim htables hlimit (Instant.hasMillis_of_not_leap hcall)
            refine ⟨.claimed ts, left, effect_map_of_ok ?_ _, hleft.mono hmore, htables'⟩
            rw [if_neg hlimit]
            exact hwork
      | record rs =>
          obtain ⟨haccepts, hleft⟩ := h.enterAll htables fun r hr =>
            Instant.hasMillis_of_not_leap (hcall r hr)
          exact ⟨_, _, effect_map_of_ok (batchWork_ok_iff.2 ⟨haccepts, rfl, rfl⟩) _, hleft⟩
      | target id =>
          obtain ⟨t?, ht⟩ := h.target? htables id
          refine ⟨.found t?, db, ?_, h.mono hmore, htables⟩
          show ((db.target? id).map StoreAnswer.found, db) = _
          rw [ht]
          rfl
      | range target owner first last =>
          obtain ⟨rows, hrows⟩ := h.range htables target owner first last
          refine ⟨.shown rows, db, ?_, h.mono hmore, htables⟩
          show ((db.range target owner first last).map StoreAnswer.shown, db) = _
          rw [hrows]
          rfl
  | upsert ts =>
      obtain ⟨left, hwork, hleft, htables'⟩ := h.upsert htables ts
      refine ⟨.upserted ts.length, left, effect_map_of_ok ?_ _, hleft.mono hmore, htables'⟩
      rw [effect_bind, hwork]
      rfl

end IsUntampered

section Migrations

/-- What the first so many statements of a migration make of a database: they
create the table of targets, that of histories, and record the version. -/
def begun (db : Database) (count : Nat) : Database :=
  if schemaVersion ≤ db.currentVersion then db
  else
    match count with
    | 0 => db
    | 1 => { db with targets := some (db.targets.getD ⟨∅, []⟩) }
    | 2 => { db with targets := some (db.targets.getD ⟨∅, []⟩)
                     history := some (db.history.getD ⟨∅, []⟩) }
    | _ => db.migrate

/-- All statements of a migration make it whole. -/
theorem begun_three (db : Database) : db.begun 3 = db.migrate := by
  unfold begun migrate
  split <;> rfl

theorem isUntampered_blank (given : List OutcomeRecord) : blank.IsUntampered given where
  targets _ h := by cases h
  history _ h := by cases h
  migrated h := absurd h (by decide)

/-- A migration may break off after any of its statements. -/
theorem IsUntampered.begun (h : db.IsUntampered given) (count : Nat) :
    (db.begun count).IsUntampered given := by
  have htargets : (db.targets.getD ⟨∅, []⟩).IsUntampered := by
    cases htable : db.targets with
    | none => exact TargetTable.isUntampered_empty
    | some table => exact h.targets table htable
  have hhistory : (db.history.getD ⟨∅, []⟩).IsUntampered given := by
    cases htable : db.history with
    | none => exact HistoryTable.isUntampered_empty given
    | some table => exact h.history table htable
  unfold Database.begun
  split
  · exact h
  · next hversion =>
      split
      · exact h
      · refine ⟨?_, h.history, fun hmigrated => absurd hmigrated hversion⟩
        intro table htable
        exact Option.some.inj htable ▸ htargets
      · refine ⟨?_, ?_, fun hmigrated => absurd hmigrated hversion⟩
        · intro table htable
          exact Option.some.inj htable ▸ htargets
        · intro table htable
          exact Option.some.inj htable ▸ hhistory
      · unfold migrate
        rw [if_neg hversion]
        refine ⟨?_, ?_, fun _ => ⟨rfl, rfl⟩⟩
        · intro table htable
          exact Option.some.inj htable ▸ htargets
        · intro table htable
          exact Option.some.inj htable ▸ hhistory

/-- A migration takes no table away. -/
theorem HasTables.begun (h : db.HasTables) (count : Nat) : (db.begun count).HasTables := by
  unfold Database.begun
  split
  · exact h
  · split
    · exact h
    · exact ⟨rfl, h.2⟩
    · exact ⟨rfl, rfl⟩
    · unfold migrate
      split
      · exact h
      · exact ⟨rfl, rfl⟩

/-- **A migration** keeps the tables, and makes sure of both. -/
theorem IsUntampered.migrate (h : db.IsUntampered given) :
    db.migrate.IsUntampered given ∧ db.migrate.HasTables := by
  refine ⟨db.begun_three ▸ h.begun 3, ?_⟩
  unfold Database.migrate
  split
  · next hversion => exact h.migrated hversion
  · exact ⟨rfl, rfl⟩

end Migrations

end Database

end PeerWatch
