import PeerWatch.Proofs.Calendar.DayTexts
import PeerWatch.Proofs.DayRows
import PeerWatch.Proofs.IdentityTexts
import PeerWatch.Proofs.Records
import PeerWatch.Proofs.Transactions

/-!
# The database's hand

The statements of a batch enter its records one by one, unless something
hinders one of them: a table is missing, a row of a day cannot be read, or a
write is refused.

* `Database.Accepts` — nothing hinders a record;
* `Database.record_ok_iff` — when a batch succeeds, and what it leaves.
-/

namespace PeerWatch

open Calendar

/-- Different days have different raw keys. -/
theorem HistoryRowKey.ofKey_injective {a b : HistoryKey} (h : ofKey a = ofKey b) : a = b := by
  obtain ⟨ta, oa, da⟩ := a
  obtain ⟨tb, ob, db⟩ := b
  simp only [ofKey, HistoryRowKey.mk.injEq] at h
  obtain ⟨htarget, howner, hday⟩ := h
  rw [TargetId.eq_of_bytes_eq htarget, OwnerId.text_injective howner, Day.text_injective hday]

/-- The hand of a database: raw rows under raw keys.  A row that cannot be read
is as good as none. -/
def databaseHand : Hand (List UInt8) TargetRow HistoryRowKey (List UInt8) where
  targetKey := TargetId.bytes
  dayKey := HistoryRowKey.ofKey
  note o row := row.recorded o
  write w blob? := (DayHistory.write w (blob?.bind (DayHistory.ofBlob? w.key))).toBlob
  targetKey_inj _ _ := TargetId.eq_of_bytes_eq
  dayKey_inj _ _ := HistoryRowKey.ofKey_injective

/-- The row of a target after it was put in: a new row, or the old one with
another address and mode. -/
def TargetRow.putIn (t : Target) : Option TargetRow → TargetRow
  | some row => { row with address := t.address, mode := t.mode.name }
  | none => .ofTarget t

namespace Database

section Sheets

/-- The rows of both tables; a missing table has none. -/
def sheets (db : Database) : Sheets (List UInt8) TargetRow HistoryRowKey (List UInt8) :=
  ⟨(db.targets.map (·.rows)).getD ∅, (db.history.map (·.rows)).getD ∅⟩

theorem sheets_targets {db : Database} {table : TargetTable} (h : db.targets = some table) :
    db.sheets.targets = table.rows := by
  simp [sheets, h]

theorem sheets_history {db : Database} {table : HistoryTable} (h : db.history = some table) :
    db.sheets.history = table.rows := by
  simp [sheets, h]

/-- Other rows in the tables that are there. -/
def withSheets (db : Database) (s : Sheets (List UInt8) TargetRow HistoryRowKey (List UInt8)) :
    Database :=
  { db with targets := db.targets.map fun table => { table with rows := s.targets }
            history := db.history.map fun table => { table with rows := s.history } }

@[simp] theorem withSheets_sheets (db : Database) : db.withSheets db.sheets = db := by
  obtain ⟨targets, history, versions⟩ := db
  cases targets <;> cases history <;> rfl

@[simp] theorem withSheets_withSheets (db : Database)
    (s s' : Sheets (List UInt8) TargetRow HistoryRowKey (List UInt8)) :
    (db.withSheets s).withSheets s' = db.withSheets s' := by
  obtain ⟨targets, history, versions⟩ := db
  cases targets <;> cases history <;> rfl

/-- Both tables are there. -/
def HasTables (db : Database) : Prop := db.targets.isSome ∧ db.history.isSome

/-- A database that has both tables has those it is given. -/
theorem HasTables.sheets_withSheets {db : Database} (h : db.HasTables)
    (s : Sheets (List UInt8) TargetRow HistoryRowKey (List UInt8)) :
    (db.withSheets s).sheets = s := by
  obtain ⟨targets, history, versions⟩ := db
  obtain ⟨⟨table, rfl⟩, ⟨days, rfl⟩⟩ :=
    And.intro (Option.isSome_iff_exists.1 h.1) (Option.isSome_iff_exists.1 h.2)
  rfl

/-- Other rows leave the tables where they are. -/
theorem HasTables.withSheets {db : Database} (h : db.HasTables)
    (s : Sheets (List UInt8) TargetRow HistoryRowKey (List UInt8)) : (db.withSheets s).HasTables :=
  ⟨Option.isSome_map.trans h.1, Option.isSome_map.trans h.2⟩

/-- What the tables hold once some records are entered; for none of them no table need
be there. -/
theorem sheets_entered {db : Database} {rs : List OutcomeRecord} (h : rs = [] ∨ db.HasTables) :
    (db.withSheets (databaseHand.enterAll rs db.sheets).1).sheets =
      (databaseHand.enterAll rs db.sheets).1 := by
  rcases h with rfl | htables
  · exact congrArg sheets db.withSheets_sheets
  · exact htables.sheets_withSheets _

end Sheets

section Statements

variable {db db' : Database}

/-- The table of targets is found where it is, and nothing changes. -/
theorem effect_targetTable {table : TargetTable} (h : db.targets = some table) :
    effect targetTable db = (.ok table, db) := by
  obtain ⟨targets, history, versions⟩ := db
  obtain rfl : targets = some table := h
  rfl

/-- The table of histories is found where it is, and nothing changes. -/
theorem effect_historyTable {table : HistoryTable} (h : db.history = some table) :
    effect historyTable db = (.ok table, db) := by
  obtain ⟨targets, history, versions⟩ := db
  obtain rfl : history = some table := h
  rfl

/-- The table of targets is found only where it is. -/
theorem targetTable_ok_iff {table : TargetTable} :
    effect targetTable db = (.ok table, db') ↔ db.targets = some table ∧ db' = db := by
  cases htargets : db.targets with
  | none =>
      obtain ⟨targets, history, versions⟩ := db
      obtain rfl : targets = none := htargets
      have hmissing : effect targetTable ⟨none, history, versions⟩ =
          (.error (.unavailable (.noTable .targets)), ⟨none, history, versions⟩) := rfl
      simp [hmissing]
  | some table' =>
      rw [effect_targetTable htargets, Prod.mk.injEq, Except.ok.injEq, Option.some.injEq]
      exact and_congr_right' eq_comm

/-- The table of histories is found only where it is. -/
theorem historyTable_ok_iff {table : HistoryTable} :
    effect historyTable db = (.ok table, db') ↔ db.history = some table ∧ db' = db := by
  cases hhistory : db.history with
  | none =>
      obtain ⟨targets, history, versions⟩ := db
      obtain rfl : history = none := hhistory
      have hmissing : effect historyTable ⟨targets, none, versions⟩ =
          (.error (.unavailable (.noTable .history)), ⟨targets, none, versions⟩) := rfl
      simp [hmissing]
  | some table' =>
      rw [effect_historyTable hhistory, Prod.mk.injEq, Except.ok.injEq, Option.some.injEq]
      exact and_congr_right' eq_comm

/-- Other rows in the table of targets alone. -/
theorem withSheets_targets {table : TargetTable} (h : db.targets = some table)
    (rows : Table (List UInt8) TargetRow) :
    db.withSheets ⟨rows, db.sheets.history⟩ =
      { db with targets := some { table with rows := rows } } := by
  obtain ⟨targets, history, versions⟩ := db
  obtain rfl : targets = some table := h
  cases history <;> rfl

/-- Everything that putting a target in does, if it is not refused. -/
theorem effect_upsertWork_cons {table : TargetTable} (h : db.targets = some table) {t : Target}
    (haccepted : table.refuses .insertion t.id.bytes = false) (rest : List Target) :
    effect (upsertWork (t :: rest)) db = effect (upsertWork rest)
      { db with targets := some { table with
          rows := table.rows.insert t.id.bytes
            (TargetRow.putIn t (table.rows.find? t.id.bytes)) } } := by
  rw [upsertWork, effect_bind, effect_targetTable h]
  simp only [haccepted, Bool.false_eq_true, if_false]
  rw [effect_bind]
  cases table.rows.find? t.id.bytes <;> rfl

/-- The tables with the outcome of a probe noted. -/
def noted (db : Database) (o : Outcome) : Database :=
  db.withSheets { db.sheets with
    targets := db.sheets.targets.modify o.target.bytes (·.recorded o) }

/-- The tables with a slot written. -/
def written (db : Database) (w : SlotWrite) : Database :=
  db.withSheets { db.sheets with
    history := db.sheets.history.insert (HistoryRowKey.ofKey w.key)
      (databaseHand.write w (db.sheets.history.find? (HistoryRowKey.ofKey w.key))) }

/-- Nothing hinders noting an outcome. -/
def AcceptsOutcome (db : Database) (o : Outcome) : Prop :=
  ∃ table, db.targets = some table ∧
    (table.rows.contains o.target.bytes → table.refuses .outcome o.target.bytes = false)

/-- Nothing hinders writing a slot. -/
def AcceptsSlot (db : Database) (w : SlotWrite) : Prop :=
  ∃ table, db.history = some table ∧ table.refuses w.key.target.bytes = false ∧
    ∀ blob, table.rows.find? (HistoryRowKey.ofKey w.key) = some blob →
      (DayHistory.ofBlob? w.key blob).isSome

/-- Everything that noting an outcome can do. -/
theorem effect_noteOutcome {table : TargetTable} (h : db.targets = some table) (o : Outcome) :
    effect (noteOutcome o) db =
      if table.rows.contains o.target.bytes ∧ table.refuses .outcome o.target.bytes then
        (.error (.unavailable .rejected), db)
      else (.ok (table.rows.contains o.target.bytes), db.noted o) := by
  obtain ⟨targets, history, versions⟩ := db
  obtain rfl : targets = some table := h
  unfold noteOutcome
  rw [effect_bind, effect_targetTable rfl]
  cases hknown : table.rows.contains o.target.bytes with
  | true =>
      cases hrefused : table.refuses .outcome o.target.bytes with
      | true => simp [hknown, hrefused]; rfl
      | false => cases history <;> simp [hknown, hrefused] <;> rfl
  | false =>
      have hnone : table.rows.find? o.target.bytes = none := by
        simpa [Table.contains] using hknown
      have hsame : noted ⟨some table, history, versions⟩ o = ⟨some table, history, versions⟩ := by
        unfold noted
        have hmodify : (sheets ⟨some table, history, versions⟩).targets.modify o.target.bytes
            (·.recorded o) = (sheets ⟨some table, history, versions⟩).targets :=
          Table.modify_of_find?_eq_none hnone _
        rw [hmodify]
        exact withSheets_sheets _
      rw [hsame]
      simp [hknown]
      rfl

/-- A slot is written into the table of histories, and nowhere else. -/
theorem written_eq {table : HistoryTable} (h : db.history = some table) (w : SlotWrite) :
    db.written w = { db with history := some { table with
      rows := table.rows.insert (HistoryRowKey.ofKey w.key)
        (databaseHand.write w (table.rows.find? (HistoryRowKey.ofKey w.key))) } } := by
  obtain ⟨targets, history, versions⟩ := db
  obtain rfl : history = some table := h
  cases targets <;> rfl

/-- A write to the table of histories is done unless it is refused. -/
theorem effect_historyWrite (table : HistoryTable) (target : List UInt8)
    (rows : Table HistoryRowKey (List UInt8)) (existed : Bool) :
    effect (do
      if table.refuses target then throw (.unavailable .rejected)
      setHistoryRows table rows
      pure existed) db =
      if table.refuses target then (.error (.unavailable .rejected), db)
      else (.ok existed, { db with history := some { table with rows := rows } }) := by
  cases table.refuses target <;> rfl

/-- Everything that writing a slot can do. -/
theorem effect_writeSlot {table : HistoryTable} (h : db.history = some table) (w : SlotWrite) :
    effect (writeSlot w) db =
      match (table.rows.find? (HistoryRowKey.ofKey w.key)).map (decodeBlob w.key) with
      | some (.error e) => (.error e, db)
      | _ =>
        if table.refuses w.key.target.bytes then (.error (.unavailable .rejected), db)
        else (.ok (table.rows.contains (HistoryRowKey.ofKey w.key)), db.written w) := by
  rw [written_eq h]
  unfold writeSlot Table.contains
  rw [effect_bind, effect_historyTable h]
  dsimp only
  cases hfind : table.rows.find? (HistoryRowKey.ofKey w.key) with
  | none =>
      simp only [Option.map_none, databaseHand, Option.bind_none, DayHistory.write]
      exact effect_historyWrite table w.key.target.bytes _ false
  | some blob =>
      dsimp only
      rw [effect_bind]
      simp only [Option.map_some, decodeBlob, databaseHand, Option.bind_some]
      cases hread : DayHistory.ofBlob? w.key blob with
      | none => rfl
      | some row =>
          simp only [DayHistory.write]
          exact effect_historyWrite table w.key.target.bytes _ true

/-- An outcome is noted exactly where it is accepted; the answer tells whether its target is
there. -/
theorem noteOutcome_ok_iff {o : Outcome} {known : Bool} :
    effect (noteOutcome o) db = (.ok known, db') ↔
      db.AcceptsOutcome o ∧ known = db.sheets.targets.contains o.target.bytes ∧
        db' = db.noted o := by
  unfold AcceptsOutcome
  cases h : db.targets with
  | none =>
      unfold noteOutcome
      rw [bind_ok_iff]
      simp [targetTable_ok_iff, h]
  | some table =>
      have hrows : db.sheets.targets = table.rows := sheets_targets h
      rw [effect_noteOutcome h, hrows]
      split
      · next hrefused => simp [hrefused]
      · next haccepted =>
          simp only [Prod.mk.injEq, Except.ok.injEq]
          grind

/-- A slot is written exactly where it is accepted; the answer tells whether its day was there. -/
theorem writeSlot_ok_iff {w : SlotWrite} {existed : Bool} :
    effect (writeSlot w) db = (.ok existed, db') ↔
      db.AcceptsSlot w ∧ existed = db.sheets.history.contains (HistoryRowKey.ofKey w.key) ∧
        db' = db.written w := by
  unfold AcceptsSlot
  cases h : db.history with
  | none =>
      unfold writeSlot
      rw [bind_ok_iff]
      simp [historyTable_ok_iff, h]
  | some table =>
      have hrows : db.sheets.history = table.rows := sheets_history h
      rw [effect_writeSlot h, hrows]
      cases hfind : table.rows.find? (HistoryRowKey.ofKey w.key) with
      | none =>
          simp only [Option.map_none]
          split
          · next hrefused => simp [hrefused]
          · next haccepted =>
              simp only [Prod.mk.injEq, Except.ok.injEq]
              grind
      | some blob =>
          simp only [Option.map_some, decodeBlob]
          cases hread : DayHistory.ofBlob? w.key blob with
          | none =>
              simp only [Prod.mk.injEq, reduceCtorEq, false_and, false_iff]
              grind
          | some row =>
              simp only
              split
              · next hrefused => simp [hrefused]
              · next haccepted =>
                  simp only [Prod.mk.injEq, Except.ok.injEq]
                  grind

end Statements

section Batches

variable {db db' : Database}

/-- Nothing hinders a record. -/
def Accepts (db : Database) (r : OutcomeRecord) : Prop :=
  db.AcceptsOutcome r.outcome ∧ db.AcceptsSlot r.slot

/-- Nothing hinders the records of a batch, one after another. -/
def AcceptsAll : List OutcomeRecord → Database → Prop
  | [], _ => True
  | r :: rest, db => db.Accepts r ∧ AcceptsAll rest (db.withSheets (databaseHand.enter db.sheets r))

/-- Whoever accepts a record has both tables. -/
theorem Accepts.hasTables {r : OutcomeRecord} (h : db.Accepts r) : db.HasTables := by
  obtain ⟨⟨table, htable, _⟩, ⟨days, hdays, _⟩⟩ := h
  exact ⟨by simp [htable], by simp [hdays]⟩

/-- Whoever accepts a batch that is not empty has both tables. -/
theorem AcceptsAll.hasTables {rs : List OutcomeRecord} (h : AcceptsAll rs db) :
    rs = [] ∨ db.HasTables := by
  cases rs with
  | nil => exact .inl rfl
  | cons r rest => exact .inr h.1.hasTables

/-- Noting an outcome does not touch the histories. -/
theorem history_noted (o : Outcome) : (db.noted o).history = db.history := by
  obtain ⟨targets, history, versions⟩ := db
  cases history <;> rfl

/-- A record noted and written is a record entered. -/
theorem HasTables.noted_written (h : db.HasTables) (r : OutcomeRecord) :
    (db.noted r.outcome).written r.slot = db.withSheets (databaseHand.enter db.sheets r) := by
  unfold written noted
  rw [h.sheets_withSheets, withSheets_withSheets]
  rfl

/-- **One record.**  Its statements succeed if nothing hinders them, and then it
is entered. -/
theorem recordWork_ok_iff {r : OutcomeRecord} {report report' : BatchReport} :
    effect (recordWork r report) db = (.ok report', db') ↔
      db.Accepts r ∧ report' = report + databaseHand.tally db.sheets r ∧
        db' = db.withSheets (databaseHand.enter db.sheets r) := by
  unfold recordWork
  simp only [bind_ok_iff, noteOutcome_ok_iff, writeSlot_ok_iff, pure_ok_iff]
  have hslot : (db.noted r.outcome).AcceptsSlot r.slot ↔ db.AcceptsSlot r.slot := by
    unfold AcceptsSlot
    rw [history_noted]
  have hcontains : (db.noted r.outcome).sheets.history = db.sheets.history := by
    unfold sheets
    rw [history_noted]
  constructor
  · intro hdone
    rcases hdone with ⟨known, between, hnoted, existed, between', hwritten, rfl, rfl⟩
    rcases hnoted with ⟨houtcome, rfl, rfl⟩
    rcases hwritten with ⟨hslot', rfl, rfl⟩
    have haccepts : db.Accepts r := ⟨houtcome, hslot.1 hslot'⟩
    refine ⟨haccepts, ?_, haccepts.hasTables.noted_written r⟩
    rw [hcontains]
    apply BatchReport.ext_counts <;> rfl
  · intro hdone
    rcases hdone with ⟨haccepts, rfl, rfl⟩
    refine ⟨_, _, ⟨haccepts.1, rfl, rfl⟩, _, _, ⟨hslot.2 haccepts.2, rfl, rfl⟩, ?_,
      (haccepts.hasTables.noted_written r).symm⟩
    rw [hcontains]
    apply BatchReport.ext_counts <;> rfl

/-- Work on a batch succeeds if nothing hinders its records, and then they are
entered. -/
theorem batchWork_ok_iff {row : Nat} {rs : List OutcomeRecord} {report report' : BatchReport} :
    effect (batchWork row rs report) db = (.ok report', db') ↔
      AcceptsAll rs db ∧ report' = report + (databaseHand.enterAll rs db.sheets).2 ∧
        db' = db.withSheets (databaseHand.enterAll rs db.sheets).1 := by
  induction rs generalizing row db report with
  | nil =>
      rw [batchWork, pure_ok_iff]
      simp [AcceptsAll, Hand.enterAll, BatchReport.add_zero]
  | cons r rest ih =>
      rw [batchWork, bind_ok_iff]
      simp only [tryCatch_throw_ok_iff, recordWork_ok_iff, ih, AcceptsAll, Hand.enterAll]
      constructor
      · intro hdone
        rcases hdone with ⟨_, _, ⟨haccepts, rfl, rfl⟩, hrest, rfl, rfl⟩
        refine ⟨⟨haccepts, hrest⟩, ?_, ?_⟩
        · rw [haccepts.hasTables.sheets_withSheets, BatchReport.add_assoc]
        · rw [haccepts.hasTables.sheets_withSheets, withSheets_withSheets]
      · intro hdone
        rcases hdone with ⟨⟨haccepts, hrest⟩, rfl, rfl⟩
        refine ⟨_, _, ⟨haccepts, rfl, rfl⟩, hrest, ?_, ?_⟩
        · rw [haccepts.hasTables.sheets_withSheets, BatchReport.add_assoc]
        · rw [haccepts.hasTables.sheets_withSheets, withSheets_withSheets]

/-- **A batch** is recorded if nothing hinders its records, and then they are
entered. -/
theorem record_ok_iff {rs : List OutcomeRecord} {report : BatchReport} :
    db.record rs = (db', .ok report) ↔
      AcceptsAll rs db ∧ report = (databaseHand.enterAll rs db.sheets).2 ∧
        db' = db.withSheets (databaseHand.enterAll rs db.sheets).1 := by
  have hbatch : db.record rs = (db', .ok report) ↔
      effect (batchWork 0 rs .zero) db = (.ok report, db') := by
    unfold record Session.record
    split
    · next hempty =>
        obtain rfl := List.isEmpty_iff.1 hempty
        have hnothing : Session.leave (Session.idle db, .ok BatchReport.zero) =
            (db, .ok BatchReport.zero) := rfl
        rw [batchWork, pure_ok_iff, hnothing, Prod.mk.injEq, Except.ok.injEq, and_comm,
          eq_comm, eq_comm (b := db')]
    · exact Session.leave_transact_ok_iff
  rw [hbatch, batchWork_ok_iff, BatchReport.zero_add]

/-- **A batch that failed** left nothing. -/
theorem record_of_error {rs : List OutcomeRecord} {e : StoreError}
    (h : db.record rs = (db', .error e)) : db' = db := by
  unfold record Session.record at h
  split at h
  · cases h
  · have hnothing := (Session.transact_allOrNothing db .free (batchWork 0 rs .zero)).failed e
      (congrArg Prod.snd h)
    exact (congrArg Prod.fst h).symm.trans (congrArg Session.durable hnothing)

/-- A batch that nothing hinders is entered, and any other leaves nothing. -/
theorem record_cases (db : Database) (rs : List OutcomeRecord) :
    (AcceptsAll rs db ∧ (db.record rs).1 = db.withSheets (databaseHand.enterAll rs db.sheets).1) ∨
      (¬ AcceptsAll rs db ∧ (db.record rs).1 = db) := by
  by_cases haccepts : AcceptsAll rs db
  · have hrecord := record_ok_iff.2 ⟨haccepts, rfl, rfl⟩
    exact .inl ⟨haccepts, congrArg Prod.fst hrecord⟩
  · right
    cases hresult : (db.record rs).2 with
    | error e => exact ⟨haccepts, record_of_error (Prod.ext rfl hresult)⟩
    | ok report => exact absurd (record_ok_iff.1 (Prod.ext rfl hresult)).1 haccepts

end Batches

end Database

end PeerWatch
