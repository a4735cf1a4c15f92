import PeerWatch.Store.Database

/-!
# Tampering with a database

Raw edits that other hands may make to a database file between the operations
of a store: values that make no sense, missing tables, rules that refuse
writes, another record of schema versions.
-/

namespace PeerWatch

/-- An integer column of the table of targets. -/
inductive IntegerColumn where
  | lastClaimedAt
  | lastSuccessAt
  | lastLatency
  | lastProbeOk
deriving DecidableEq, Repr

/-- A raw edit. -/
inductive Tampering where
  /-- Puts in a history row with a raw day and as many zero bytes. -/
  | historyRow (key : HistoryRowKey) (length : Nat)
  /-- Puts in a target with a raw identity and a raw mode. -/
  | targetRow (id : List UInt8) (mode : String)
  | column (column : IntegerColumn) (id : List UInt8) (value : Option Int)
  | mode (id : List UInt8) (mode : String)
  | delete (id : List UInt8)
  /-- Refuses a kind of write to a target from now on. -/
  | refuse (write : GuardedWrite) (id : List UInt8)
  | allow
  | dropTable (table : TableName)
  /-- Makes the given versions the only recorded ones. -/
  | setVersions (versions : List Int)

/-- The address of a target that was put in raw. -/
def rawAddress : String := "raw:1"

/-- A row with one of its integer columns set. -/
def TargetRow.setColumn (row : TargetRow) (value : Option Int) : IntegerColumn → TargetRow
  | .lastClaimedAt => { row with lastClaimedAt := value }
  | .lastSuccessAt => { row with lastSuccessAt := value }
  | .lastLatency => { row with lastLatency := value }
  | .lastProbeOk => { row with lastProbeOk := value }

namespace Database

/-- Changes the table of targets, if there is one. -/
def mapTargets (db : Database) (f : TargetTable → TargetTable) : Database :=
  { db with targets := db.targets.map f }

/-- The database after a raw edit. -/
def tamper (db : Database) : Tampering → Database
  | .historyRow key length =>
    { db with history := db.history.map fun t =>
        { t with rows := t.rows.insert key (List.replicate length 0) } }
  | .targetRow id mode =>
    db.mapTargets fun t =>
      { t with rows := t.rows.insert id ⟨id, rawAddress, mode, none, none, none, none⟩ }
  | .column column id value =>
    db.mapTargets fun t => { t with rows := t.rows.modify id (·.setColumn value column) }
  | .mode id mode =>
    db.mapTargets fun t => { t with rows := t.rows.modify id ({ · with mode := mode }) }
  | .delete id => db.mapTargets fun t => { t with rows := t.rows.erase id }
  | .refuse write id => db.mapTargets fun t => { t with refusals := (write, id) :: t.refusals }
  | .allow => db.mapTargets fun t => { t with refusals := [] }
  | .dropTable .targets => { db with targets := none }
  | .dropTable .history => { db with history := none }
  | .setVersions versions => { db with versions := versions }

end Database

end PeerWatch
