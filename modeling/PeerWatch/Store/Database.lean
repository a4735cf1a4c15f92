import PeerWatch.Store.Row

/-!
# The database: a store in a file

Two tables of raw rows and the recorded versions of their schema.

Whatever changes the tables runs as a transaction: its statements work on the
session's tables, and an error, at whichever statement, takes the session back
to where the transaction began.  Other hands that hold the file may keep a
transaction from beginning or from being kept.  A claim for whose answer there
can be no room tears its caller down, and then nobody ends its transaction.

* `Session.claim`, `record`, `upsert`, `target?`, `range` — the operations;
* `Session.transact`, `Session.transact?` — the two ways to change a database;
* `migrate` — what opening a file does to its tables.
-/

namespace PeerWatch

open Calendar

/-- The contents of a database file. -/
structure Database where
  /-- `none` if the table is missing. -/
  targets : Option TargetTable
  /-- `none` if the table is missing. -/
  history : Option HistoryTable
  versions : List Int

namespace Database

/-- What an empty file holds. -/
def blank : Database := ⟨none, none, []⟩

instance : Inhabited Database := ⟨blank⟩

/-- The version of the schema that has both tables. -/
def schemaVersion : Int := 1

/-- The greatest recorded version, 0 if there is none. -/
def currentVersion (db : Database) : Int :=
  match db.versions with
  | [] => 0
  | v :: vs => vs.foldl max v

/-- Creates the missing tables and records the version, unless a version that
has them is recorded. -/
def migrate (db : Database) : Database :=
  if schemaVersion ≤ db.currentVersion then db
  else
    { targets := some (db.targets.getD ⟨∅, []⟩)
      history := some (db.history.getD ⟨∅, []⟩)
      versions := if db.versions.contains schemaVersion then db.versions
                  else db.versions ++ [schemaVersion] }

/-- A computation on the tables that may fail; what it changed before it
failed stays changed. -/
abbrev Work := ExceptT StoreError (StateM Database)

/-- The table of targets, if it is there. -/
def targetTable : Work TargetTable := do
  match (← get).targets with
  | some table => pure table
  | none => throw (.unavailable (.noTable .targets))

/-- The table of histories, if it is there. -/
def historyTable : Work HistoryTable := do
  match (← get).history with
  | some table => pure table
  | none => throw (.unavailable (.noTable .history))

/-- Sets the rows of the table of targets. -/
def setTargetRows (table : TargetTable) (rows : Table (List UInt8) TargetRow) : Work Unit :=
  modify fun db => { db with targets := some { table with rows := rows } }

/-- Sets the rows of the table of histories. -/
def setHistoryRows (table : HistoryTable) (rows : Table HistoryRowKey (List UInt8)) : Work Unit :=
  modify fun db => { db with history := some { table with rows := rows } }

/-- What other hands that hold the file refuse a session: the beginning of a
transaction, or its end. -/
structure Contention where
  atBegin : Option Hindrance
  atCommit : Option Hindrance

/-- Nobody else holds the file. -/
def Contention.free : Contention := ⟨none, none⟩

/-- A session with a database: its tables, and inside a transaction the tables
it would go back to. -/
structure Session where
  tables : Database
  checkpoint : Option Database

namespace Session

/-- A session outside any transaction. -/
def idle (db : Database) : Session := ⟨db, none⟩

/-- What the file holds, as every other session sees it. -/
def durable (s : Session) : Database := s.checkpoint.getD s.tables

/-- Begins a transaction; there is none within another. -/
def begin (s : Session) (refused : Option Hindrance) : Except StoreError Session :=
  match s.checkpoint, refused with
  | some _, _ => .error (.unavailable .withinTransaction)
  | none, some hindrance => .error (.unavailable hindrance)
  | none, none => .ok { s with checkpoint := some s.tables }

/-- Ends the transaction, and keeps what it did. -/
def commit (s : Session) (refused : Option Hindrance) : Except StoreError Session :=
  match refused with
  | some hindrance => .error (.unavailable hindrance)
  | none => .ok { s with checkpoint := none }

/-- Ends the transaction, and undoes what it did. -/
def rollback (s : Session) : Session := ⟨s.checkpoint.getD s.tables, none⟩

/-- Runs some work on the tables of the session, within or without a transaction. -/
def perform {α : Type} (s : Session) (work : Work α) : Session × Except StoreError α :=
  let (result, tables) := work.run.run s.tables
  ({ s with tables := tables }, result)

/-- Ends the transaction as its result demands; one that cannot be kept is
undone. -/
def finish {α : Type} (s : Session) (refused : Option Hindrance) :
    Except StoreError α → Session × Except StoreError α
  | .ok value =>
    match s.commit refused with
    | .ok kept => (kept, .ok value)
    | .error e => (s.rollback, .error e)
  | .error e => (s.rollback, .error e)

/-- Runs some work as a transaction: all of it or nothing. -/
def transact {α : Type} (s : Session) (c : Contention) (work : Work α) :
    Session × Except StoreError α :=
  match s.begin c.atBegin with
  | .error e => (s, .error e)
  | .ok opened =>
    let (worked, result) := opened.perform work
    worked.finish c.atCommit result

/-- Runs some work as a transaction.  Where the work gives nothing, it tore its
caller down, and the session is left inside the transaction. -/
def transact? {α : Type} (s : Session) (c : Contention) (work : Work (Option α)) :
    Session × Option (Except StoreError α) :=
  match s.begin c.atBegin with
  | .error e => (s, some (.error e))
  | .ok opened =>
    let (worked, result) := opened.perform work
    match result with
    | .ok none => (worked, none)
    | .ok (some value) => (worked.finish c.atCommit (.ok value)).map id some
    | .error e => (worked.finish c.atCommit (.error e)).map id some

/-- What a session leaves behind when it goes, with its answer: what it did not
commit goes with it. -/
def leave {α : Type} (outcome : Session × Except StoreError α) :
    Database × Except StoreError α :=
  (outcome.1.durable, outcome.2)

end Session

/-- Notes the moment of a claim in the rows of some targets. -/
def stampAll (stamp : Int) : List Target → Work Unit
  | [] => pure ()
  | t :: rest => do
    let table ← targetTable
    if table.refuses .claim t.id.bytes then throw (.unavailable .rejected)
    setTargetRows table (table.rows.modify t.id.bytes fun row =>
      { row with lastClaimedAt := some stamp })
    stampAll stamp rest

/-- The most targets there can be room for in memory: 2^63 - 1 bytes, 96 for
each of them. -/
def claimBound : Nat := 96076792050570581

/-- Hands out the first targets of the queue of a table and notes the moment. -/
def handOut (table : TargetTable) (limit : Nat) (now moment : Instant) : Work (List Target) := do
  let claimed ← ExceptT.mk (pure (decodeRows (table.queue.take limit)))
  stampAll now.toMillis claimed
  pure (claimed.map fun t => { t with lastClaimedAt := some moment })

/-- The statements of a claim for no more targets than there can be room for. -/
def claimWork (limit : Nat) (now : Instant) : Work (List Target) := do
  let moment ← ExceptT.mk (pure (decodeMillis now.toMillis))
  let table ← targetTable
  handOut table limit now moment

/-- The statements of any claim.  Once the moment is told and the table found,
room is made for the answer, and where there can be none the caller is torn down. -/
def claimWork? (limit : Nat) (now : Instant) : Work (Option (List Target)) := do
  let moment ← ExceptT.mk (pure (decodeMillis now.toMillis))
  let table ← targetTable
  if claimBound < limit then pure none else some <$> handOut table limit now moment

/-- Hands out the first targets of the queue and notes the moment.  There is no
answer for a caller that is torn down. -/
def Session.claim (s : Session) (c : Contention) (limit : Nat) (now : Instant) :
    Session × Option (Except StoreError (List Target)) :=
  if limit = 0 then (s, some (.ok [])) else s.transact? c (claimWork? limit now)

/-- A claim by a session that has the file to itself, for no more targets than
there can be room for. -/
def claim (db : Database) (limit : Nat) (now : Instant) :
    Database × Except StoreError (List Target) :=
  Session.leave
    (if limit = 0 then (Session.idle db, .ok [])
     else (Session.idle db).transact .free (claimWork limit now))

/-- Notes an outcome in the row of its target; the answer is whether there is
one. -/
def noteOutcome (o : Outcome) : Work Bool := do
  let table ← targetTable
  if table.rows.contains o.target.bytes then
    if table.refuses .outcome o.target.bytes then throw (.unavailable .rejected)
    setTargetRows table (table.rows.modify o.target.bytes fun row => row.recorded o)
    pure true
  else pure false

/-- Writes a slot into the row of its day, or begins that row with it; the
answer is whether there was one. -/
def writeSlot (w : SlotWrite) : Work Bool := do
  let table ← historyTable
  let key := HistoryRowKey.ofKey w.key
  match table.rows.find? key with
  | some blob =>
    let row ← ExceptT.mk (pure (decodeBlob w.key blob))
    if table.refuses key.target then throw (.unavailable .rejected)
    setHistoryRows table (table.rows.insert key (row.set w.minute w.value).toBlob)
    pure true
  | none =>
    if table.refuses key.target then throw (.unavailable .rejected)
    setHistoryRows table
      (table.rows.insert key (DayHistory.single w.key w.minute w.value).toBlob)
    pure false

/-- The statements of a record, counted in the report of its batch. -/
def recordWork (r : OutcomeRecord) (report : BatchReport) : Work BatchReport := do
  let known ← noteOutcome r.outcome
  let existed ← writeSlot r.slot
  pure
    { targetsUpdated := report.targetsUpdated + (if known then 1 else 0)
      slotsUpdated := report.slotsUpdated + (if existed then 1 else 0)
      rowsInserted := report.rowsInserted + (if existed then 0 else 1) }

/-- A database that could not be used while a record was applied is reported
with the record; what is corrupt is reported as it is. -/
def atRow (row : Nat) (target : TargetId) : StoreError → StoreError
  | .unavailable hindrance => .rowFailed row target hindrance
  | e => e

/-- The statements of a batch, from its record number `row` on. -/
def batchWork (row : Nat) : List OutcomeRecord → BatchReport → Work BatchReport
  | [], report => pure report
  | r :: rest, report => do
    let report ← tryCatch (recordWork r report) fun e => throw (atRow row r.outcome.target e)
    batchWork (row + 1) rest report

/-- Records a batch, all of it or nothing. -/
def Session.record (s : Session) (c : Contention) (records : List OutcomeRecord) :
    Session × Except StoreError BatchReport :=
  if records.isEmpty then (s, .ok .zero) else s.transact c (batchWork 0 records .zero)

/-- A batch recorded by a session that has the file to itself. -/
def record (db : Database) (records : List OutcomeRecord) :
    Database × Except StoreError BatchReport :=
  Session.leave ((Session.idle db).record .free records)

/-- The statements that put in some targets. -/
def upsertWork : List Target → Work Unit
  | [] => pure ()
  | t :: rest => do
    let table ← targetTable
    if table.refuses .insertion t.id.bytes then throw (.unavailable .rejected)
    let row := match table.rows.find? t.id.bytes with
      | some row => { row with address := t.address, mode := t.mode.name }
      | none => TargetRow.ofTarget t
    setTargetRows table (table.rows.insert t.id.bytes row)
    upsertWork rest

/-- Puts in targets; of one that is there already, only address and mode
change.  The answer is how many were given. -/
def Session.upsert (s : Session) (c : Contention) (ts : List Target) :
    Session × Except StoreError Nat :=
  s.transact c (do upsertWork ts; pure ts.length)

/-- Targets put in by a session that has the file to itself. -/
def upsert (db : Database) (ts : List Target) : Database × Except StoreError Nat :=
  Session.leave ((Session.idle db).upsert .free ts)

/-- The target of an identity, if there is one, read from its row. -/
def target? (db : Database) (id : TargetId) : Except StoreError (Option Target) :=
  match db.targets with
  | none => .error (.unavailable (.noTable .targets))
  | some table =>
    match table.rows.find? id.bytes with
    | none => .ok none
    | some row => row.decode.map some

/-- Rows of a target and an owner decoded one after another, up to the first
that cannot be. -/
def decodeHistory (target : TargetId) (owner : OwnerId) :
    List (HistoryRowKey × List UInt8) → Except StoreError (List DayHistory)
  | [] => .ok []
  | (key, blob) :: rest =>
    match Day.parse key.day with
    | .error fault => .error (.corrupt (.dayText key.day fault))
    | .ok day =>
      match decodeBlob ⟨target, owner, day⟩ blob with
      | .error e => .error e
      | .ok row => (decodeHistory target owner rest).map (row :: ·)

/-- The rows of a target and an owner whose days lie between two days, all
compared as texts. -/
def range (db : Database) (target : TargetId) (owner : OwnerId) (first last : Day) :
    Except StoreError (List DayHistory) :=
  if last < first then .ok []
  else
    match db.history with
    | none => .error (.unavailable (.noTable .history))
    | some table =>
      decodeHistory target owner (table.rows.filter fun key _ =>
        key.target = target.bytes ∧ key.owner = owner.text
          ∧ (compare first.text key.day).isLE ∧ (compare key.day last.text).isLE).entries

end Database

/-- What lies at the path of a database. -/
inductive DatabaseFile where
  | absent
  | garbage
  /-- A directory, or no place where a file could be. -/
  | blocked
  | holding (db : Database)

/-- Opens what lies at a path: a new database is begun where there is nothing,
and the schema of any database is brought up to date. -/
def DatabaseFile.openAt (path : String) : DatabaseFile → Except StoreError Database
  | .absent => .ok Database.blank.migrate
  | .garbage => .error (.unavailable .notADatabase)
  | .blocked => .error (.unavailable (.cannotOpen path))
  | .holding db => .ok db.migrate

end PeerWatch
