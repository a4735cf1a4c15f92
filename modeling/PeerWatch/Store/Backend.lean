import PeerWatch.Store.Ledger
import PeerWatch.Store.Database

/-!
# Either store

What the pipeline works with: a ledger in memory or a database in a file.

* `claim`, `record`, `range`, `target?` — the operations both have.
-/

namespace PeerWatch

open Calendar

/-- A store of either kind. -/
inductive Backend where
  | ledger (l : Ledger)
  | database (db : Database)

namespace Backend

/-- Hands out the targets that have waited longest, where `claimTears` says that
there can be room for them. -/
def claim (limit : Nat) (now : Instant) : Backend → Backend × Except StoreError (List Target)
  | .ledger l => let (l, result) := l.claim limit now; (.ledger l, result)
  | .database db => let (db, result) := db.claim limit now; (.database db, result)

/-- Records a batch, all of it or nothing. -/
def record (records : List OutcomeRecord) : Backend → Backend × Except StoreError BatchReport
  | .ledger l => let (l, result) := l.record records; (.ledger l, result)
  | .database db => let (db, result) := db.record records; (.database db, result)

/-- The rows of a target and an owner from one day to another. -/
def range (target : TargetId) (owner : OwnerId) (first last : Day) :
    Backend → Except StoreError (List DayHistory)
  | .ledger l => .ok (l.range target owner first last)
  | .database db => db.range target owner first last

/-- The target of an identity, if there is one. -/
def target? (id : TargetId) : Backend → Except StoreError (Option Target)
  | .ledger l => .ok (l.targets.find? id)
  | .database db => db.target? id

/-- Whether a claim of so many targets, at a moment that can be told in whole
milliseconds, tears its caller down, the room for its answer being more than
there can be. -/
def claimTears (limit : Nat) : Backend → Bool
  | .ledger _ => false
  | .database db => db.targets.isSome && Database.claimBound < limit

/-- Does something to a ledger, and nothing to a database. -/
def mapLedger (f : Ledger → Ledger) : Backend → Backend
  | .ledger l => .ledger (f l)
  | .database db => .database db

/-- Whether batches have to wait. -/
def isPaused : Backend → Bool
  | .ledger l => l.paused
  | .database _ => false

end Backend

end PeerWatch
