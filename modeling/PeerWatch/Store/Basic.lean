import PeerWatch.History.SlotWrite
import PeerWatch.Calendar.DayText

/-!
# What stores answer

A store keeps targets and histories.  It hands out the targets that have
waited longest for a probe (a claim), takes in batches of outcomes, and gives
back the history of a span of days.  Both kinds of store, the ledger in memory
and the database in a file, answer in the terms of this file.

* `StoreError` — what can go wrong, with `StoreError.message`;
* `BatchReport` — what recording a batch did;
* `staleBefore` — the order in which targets are claimed.
-/

namespace PeerWatch

open Calendar

/-- The two tables of a database. -/
inductive TableName where
  | targets
  | history
deriving DecidableEq, Repr

/-- The name of a table in the schema. -/
def TableName.text : TableName → String
  | .targets => "targets"
  | .history => "daily_history"

/-- Why a store could not do what it was asked. -/
inductive Hindrance where
  | claimAborted
  /-- A row of a batch was made to fail. -/
  | injectedFault
  | noTable (table : TableName)
  | rejected
  | notADatabase
  /-- There is something at the path that cannot be opened as a file. -/
  | cannotOpen (path : String)
  /-- The session is inside a transaction already. -/
  | withinTransaction
  | described (reason : String)
deriving DecidableEq, Repr

def Hindrance.message : Hindrance → String
  | .claimAborted => "claim transaction aborted"
  | .injectedFault => "injected fault"
  | .noTable table => "SQLite failure: `no such table: " ++ table.text ++ "`"
  | .rejected => "SQLite failure: `rejected`"
  | .notADatabase => "SQLite failure: `file is not a database`"
  | .cannotOpen path =>
    "Failed to connect to database: `Unable to open connection to local database " ++ path
      ++ ": 14`"
  | .withinTransaction => "SQLite failure: `cannot start a transaction within a transaction`"
  | .described reason => reason

/-- What a stored value should be and is not. -/
inductive Corruption where
  /-- The identity of a target has another number of bytes than 32. -/
  | idLength (length : Nat)
  | unknownMode (target : TargetId) (mode : String)
  /-- A number of milliseconds is no moment of the calendar. -/
  | timestamp (ms : Int)
  /-- A latency does not fit 32 bits. -/
  | latency (target : TargetId) (ms : Int)
  /-- The day of a history row cannot be read. -/
  | dayText (text : String) (fault : Day.ParseError)
  /-- A history row has another number of bytes than 2880. -/
  | blobLength (key : HistoryKey) (length : Nat)
  | described (reason : String)
deriving DecidableEq

def Corruption.message : Corruption → String
  | .idLength length => "target id of " ++ toString length ++ " bytes"
  | .unknownMode target mode => "target " ++ target.text ++ " has mode '" ++ mode ++ "'"
  | .timestamp ms => "timestamp " ++ toString ms ++ " out of range"
  | .latency target ms => "target " ++ target.text ++ " latency " ++ toString ms
  | .dayText text fault => "history day '" ++ text ++ "': " ++ fault.message
  | .blobLength key length =>
    "history row " ++ key.target.text ++ "/" ++ key.owner.text ++ "/" ++ key.day.text ++ " has a "
      ++ toString length ++ "-byte slot blob"
  | .described reason => reason

/-- Why a store operation failed. -/
inductive StoreError where
  /-- The store could not be used. -/
  | unavailable (hindrance : Hindrance)
  | rowFailed (row : Nat) (target : TargetId) (hindrance : Hindrance)
  | corrupt (corruption : Corruption)
deriving DecidableEq

def StoreError.message : StoreError → String
  | .unavailable hindrance => "store unavailable: " ++ hindrance.message
  | .rowFailed row target hindrance =>
    "transaction failed at row " ++ toString row ++ " (target " ++ target.text ++ "): "
      ++ hindrance.message
  | .corrupt corruption => "corrupt record: " ++ corruption.message

/-- What recording a batch did. -/
structure BatchReport where
  /-- Records whose target has a row. -/
  targetsUpdated : Nat
  /-- Records whose day had a row. -/
  slotsUpdated : Nat
  /-- Records that began a row for their day. -/
  rowsInserted : Nat
deriving DecidableEq, Repr, Inhabited

/-- The report of a batch without records. -/
def BatchReport.zero : BatchReport := ⟨0, 0, 0⟩

/-- Never claimed comes first, then the earlier claim. -/
def compareClaims {α : Type} [Ord α] : Option α → Option α → Ordering
  | none, none => .eq
  | none, some _ => .lt
  | some _, none => .gt
  | some a, some b => compare a b

/-- The order in which targets are claimed: those never claimed, then those
claimed longest ago; of those claimed at once, by identity. -/
def staleBefore (a b : Target) : Bool :=
  ((compareClaims a.lastClaimedAt b.lastClaimedAt).then (compare a.id b.id)).isLE

/-- A target after a recorded outcome: whether it succeeded is kept always,
moment and latency of a success only. -/
def Target.recorded (t : Target) (o : Outcome) : Target :=
  if o.isSuccess then
    { t with lastProbeOk := some true, lastSuccessAt := some o.capturedAt,
             lastLatency := some o.latency }
  else { t with lastProbeOk := some false }

end PeerWatch
