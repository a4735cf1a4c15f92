import PeerWatch.Store.Basic
import PeerWatch.Table

/-!
# The ledger: a store in memory

Two tables, of targets and of history rows, and three switches with which a
rehearsal makes the store misbehave: writes can be paused, one row of the next
batch can be made to fail, and so can the next claim.

A batch is applied to a draft, which lies over the tables: rows are copied
into it when they are first touched, and only a batch that was applied to its
last record is laid down upon the tables.

* `claim`, `record`, `range` — the operations of a store;
* `Draft` — a batch under way.
-/

namespace PeerWatch

open Calendar

/-- A store in memory. -/
structure Ledger where
  targets : Table TargetId Target
  history : Table HistoryKey DayHistory
  /-- The row of the next batch that is to fail. -/
  faultyRow : Option Nat
  faultyClaim : Bool
  paused : Bool

namespace Ledger

/-- The ledger without rows. -/
def empty : Ledger := ⟨∅, ∅, none, false, false⟩

instance : Inhabited Ledger := ⟨empty⟩

/-- A target put in, in place of one with its identity. -/
def put (l : Ledger) (t : Target) : Ledger :=
  { l with targets := l.targets.insert t.id t }

/-- Targets put in one after another. -/
def putAll (l : Ledger) (ts : List Target) : Ledger := ts.foldl put l

/-- How many targets have been claimed at some time. -/
def claimedCount (l : Ledger) : Nat :=
  (l.targets.values.filter (·.lastClaimedAt.isSome)).length

/-- The enabled targets in the order in which they are claimed. -/
def queue (l : Ledger) : List Target :=
  (l.targets.values.filter (·.isEnabled)).mergeSort staleBefore

/-- Hands out the first targets of the queue and notes the moment. -/
def claim (l : Ledger) (limit : Nat) (now : Instant) : Ledger × Except StoreError (List Target) :=
  if l.faultyClaim then
    ({ l with faultyClaim := false }, .error (.unavailable .claimAborted))
  else
    let claimed := (l.queue.take limit).map fun t => { t with lastClaimedAt := some now }
    (l.putAll claimed, .ok claimed)

/-- A batch under way: the rows it has touched, over the tables it began
with. -/
structure Draft where
  base : Ledger
  targets : Table TargetId Target
  history : Table HistoryKey DayHistory
  report : BatchReport

namespace Draft

/-- A draft with the rows of some targets copied into it. -/
def start (base : Ledger) (ids : List TargetId) : Draft where
  base := base
  targets := ids.foldl (fun acc id =>
    match base.targets.find? id with
    | some t => acc.insert id t
    | none => acc) ∅
  history := ∅
  report := .zero

/-- The history row under a key, as the batch sees it. -/
def row? (d : Draft) (key : HistoryKey) : Option DayHistory :=
  (d.history.find? key).or (d.base.history.find? key)

/-- Notes an outcome in the row of its target, if there is one. -/
def noteOutcome (d : Draft) (o : Outcome) : Draft :=
  match d.targets.find? o.target with
  | none => d
  | some t =>
    { d with targets := d.targets.insert o.target (t.recorded o)
             report := { d.report with targetsUpdated := d.report.targetsUpdated + 1 } }

/-- Writes a slot into the row of its day, or begins that row with it. -/
def writeSlot (d : Draft) (w : SlotWrite) : Draft :=
  match d.row? w.key with
  | some row =>
    { d with history := d.history.insert w.key (row.set w.minute w.value)
             report := { d.report with slotsUpdated := d.report.slotsUpdated + 1 } }
  | none =>
    { d with history := d.history.insert w.key (DayHistory.single w.key w.minute w.value)
             report := { d.report with rowsInserted := d.report.rowsInserted + 1 } }

/-- The draft after a record. -/
def apply (d : Draft) (r : OutcomeRecord) : Draft :=
  (d.noteOutcome r.outcome).writeSlot r.slot

/-- Applies records from row `row` on, up to the one that is to fail. -/
def applyAll (faulty : Option Nat) (row : Nat) :
    List OutcomeRecord → Draft → Except StoreError Draft
  | [], d => .ok d
  | r :: rest, d =>
    if faulty = some row then .error (.rowFailed row r.outcome.target .injectedFault)
    else applyAll faulty (row + 1) rest (d.apply r)

/-- The ledger with the draft laid down upon its tables. -/
def commit (d : Draft) : Ledger :=
  { d.base with targets := d.base.targets.overlay d.targets
                history := d.base.history.overlay d.history }

end Draft

/-- Records a batch, all of it or nothing.  The fault that was set for the
batch is spent in either case. -/
def record (l : Ledger) (records : List OutcomeRecord) : Ledger × Except StoreError BatchReport :=
  let l' := { l with faultyRow := none }
  match Draft.applyAll l.faultyRow 0 records (Draft.start l' (records.map (·.outcome.target))) with
  | .error e => (l', .error e)
  | .ok draft => (draft.commit, .ok draft.report)

/-- The rows of a target and an owner from one day to another: those whose keys lie between
the keys of these days, in the order of keys. -/
def range (l : Ledger) (target : TargetId) (owner : OwnerId) (first last : Day) : List DayHistory :=
  if last < first then []
  else
    (l.history.filter fun key _ =>
      (compare (HistoryKey.mk target owner first) key).isLE ∧
        (compare key (HistoryKey.mk target owner last)).isLE).values

end Ledger

end PeerWatch
