import PeerWatch.Proofs.Transactions
import PeerWatch.Store.Backend

/-!
# Calls and answers

Whoever works with a store knows it by its answers.  This file puts the
operations of both stores into one form, so that what is said of a call and of
a sequence of calls is said once.

* `StoreCall`, `SessionCall` — what can be asked;
* `Ledger.answer`, `Database.Session.answer`, `Database.answer`, `Backend.answer` — one call;
* `serve` — a sequence of calls;
* `Database.Session.serve_idle` — one session that has a file to itself serves as sessions do
  that come and go with each call;
* `Backend.handedOut` — what the claims among them were answered.
-/

namespace PeerWatch

open Calendar

/-- What a store of either kind can be asked. -/
inductive StoreCall where
  | claim (limit : Nat) (now : Instant)
  | record (records : List OutcomeRecord)
  | target (id : TargetId)
  | range (target : TargetId) (owner : OwnerId) (first last : Day)

/-- Whether the call is a claim. -/
def StoreCall.isClaim : StoreCall → Bool
  | .claim _ _ => true
  | _ => false

/-- Whether the call records a batch. -/
def StoreCall.isRecord : StoreCall → Bool
  | .record _ => true
  | _ => false

/-- There can be room for what the call hands out. -/
def StoreCall.HasRoom : StoreCall → Prop
  | .claim limit _ => limit ≤ Database.claimBound
  | _ => True

/-- What a session with a database can be asked. -/
inductive SessionCall where
  | store (call : StoreCall)
  | upsert (ts : List Target)

/-- What a call that succeeds gives back. -/
inductive StoreAnswer where
  | claimed (ts : List Target)
  | recorded (report : BatchReport)
  | found (t? : Option Target)
  | shown (rows : List DayHistory)
  | upserted (count : Nat)
deriving DecidableEq

section Sequences

variable {κ σ α : Type}

/-- Calls answered one after another. -/
def serve (answer : κ → σ → σ × α) : List κ → σ → σ × List α
  | [], s => (s, [])
  | call :: rest, s =>
    ((serve answer rest (answer call s).1).1,
      (answer call s).2 :: (serve answer rest (answer call s).1).2)

/-- Whether a call was answered by an error.  One that tore its caller down was not answered. -/
def isError : Option (Except StoreError α) → Bool
  | some (.error _) => true
  | _ => false

/-- The calls that were not answered by an error when all were made one after another. -/
def unfailing (answer : κ → σ → σ × Option (Except StoreError α)) (calls : List κ) (s : σ) :
    List κ :=
  ((calls.zip (serve answer calls s).2).filter fun made => !isError made.2).map (·.1)

end Sequences

/-- A call answered by a ledger. -/
def Ledger.answer : StoreCall → Ledger → Ledger × Except StoreError StoreAnswer
  | .claim limit now, l => ((l.claim limit now).1, (l.claim limit now).2.map .claimed)
  | .record rs, l => ((l.record rs).1, (l.record rs).2.map .recorded)
  | .target id, l => (l, .ok (.found (l.targets.find? id)))
  | .range target owner first last, l => (l, .ok (.shown (l.range target owner first last)))

namespace Database

/-- A call answered by a session, under what other hands refuse it.  There is no answer
for a caller that is torn down. -/
def Session.answer :
    Contention × SessionCall → Session → Session × Option (Except StoreError StoreAnswer)
  | (c, .store (.claim limit now)), s =>
    ((s.claim c limit now).1, (s.claim c limit now).2.map (·.map .claimed))
  | (c, .store (.record rs)), s => ((s.record c rs).1, some ((s.record c rs).2.map .recorded))
  | (_, .store (.target id)), s => (s, some ((s.tables.target? id).map .found))
  | (_, .store (.range target owner first last)), s =>
    (s, some ((s.tables.range target owner first last).map .shown))
  | (c, .upsert ts), s => ((s.upsert c ts).1, some ((s.upsert c ts).2.map .upserted))

/-- A call answered by a session that has the file to itself, and goes then. -/
def answer : StoreCall → Database → Database × Except StoreError StoreAnswer
  | .claim limit now, db => ((db.claim limit now).1, (db.claim limit now).2.map .claimed)
  | .record rs, db => ((db.record rs).1, (db.record rs).2.map .recorded)
  | .target id, db => (db, (db.target? id).map .found)
  | .range target owner first last, db => (db, (db.range target owner first last).map .shown)

namespace Session

/-- A session that has the file to itself is ready for the next call after each one. -/
theorem answer_idle {call : StoreCall} (h : call.HasRoom) (db : Database) :
    answer (.free, .store call) (idle db) =
      (idle (db.answer call).1, some (db.answer call).2) := by
  cases call with
  | claim limit now =>
      have hroom : limit ≤ claimBound := h
      have hclaim : (idle db).claim .free limit now =
          (idle (db.claim limit now).1, some (db.claim limit now).2) := by
        rw [claim_of_room hroom]
        unfold Database.claim
        split
        · rfl
        · exact congrArg (Prod.map id some) (transact_free_eq_idle db _)
      show ((claim _ _ _ _).1, (claim _ _ _ _).2.map _) = _
      rw [hclaim]
      rfl
  | record rs =>
      have hrecord : (idle db).record .free rs = (idle (db.record rs).1, (db.record rs).2) := by
        unfold Database.record record
        split
        · rfl
        · exact transact_free_eq_idle db _
      show ((record _ _ _).1, some ((record _ _ _).2.map _)) = _
      rw [hrecord]
      rfl
  | target id => rfl
  | range target owner first last => rfl

/-- **One session serves any calls** as sessions do each of which goes after its call:
nothing is lost with them, and none of them leaves a transaction open. -/
theorem serve_idle {calls : List StoreCall} (h : ∀ call ∈ calls, call.HasRoom) (db : Database) :
    serve answer (calls.map fun call => (.free, .store call)) (idle db) =
      (idle (serve Database.answer calls db).1, (serve Database.answer calls db).2.map some) := by
  induction calls generalizing db with
  | nil => rfl
  | cons call rest ih =>
      have hrest := ih (fun call hcall => h call (List.mem_cons_of_mem _ hcall)) (db.answer call).1
      rw [List.map_cons, serve, answer_idle (h call List.mem_cons_self), hrest]
      rfl

/-- A claim that nobody hinders, at a moment that can be told, tears its caller down
where the store says so. -/
theorem claim_eq_none_iff {limit : Nat} {now : Instant} {moment : Instant}
    (hmoment : decodeMillis now.toMillis = .ok moment) (db : Database) :
    ((idle db).claim .free limit now).2 = none ↔ (Backend.database db).claimTears limit := by
  by_cases h : claimBound < limit
  · rw [claim_of_no_room h, hmoment]
    cases htargets : db.targets <;> simp [Contention.free, Backend.claimTears, htargets, h]
  · rw [claim_of_room (Nat.not_lt.1 h)]
    split <;> simp [Backend.claimTears, h]

end Session

end Database

namespace Backend

/-- A call answered by a store of either kind. -/
def answer (call : StoreCall) : Backend → Backend × Except StoreError StoreAnswer
  | .ledger l => (.ledger (l.answer call).1, (l.answer call).2)
  | .database db => (.database (db.answer call).1, (db.answer call).2)

theorem claim_ledger (limit : Nat) (now : Instant) (l : Ledger) :
    (ledger l).claim limit now = (.ledger (l.claim limit now).1, (l.claim limit now).2) := rfl

theorem claim_database (limit : Nat) (now : Instant) (db : Database) :
    (database db).claim limit now = (.database (db.claim limit now).1, (db.claim limit now).2) :=
  rfl

/-- A store of either kind answers a claim as it makes it. -/
theorem answer_claim (limit : Nat) (now : Instant) (b : Backend) :
    b.answer (.claim limit now) = ((b.claim limit now).1, (b.claim limit now).2.map .claimed) := by
  cases b <;> rfl

/-- A store of either kind answers a batch as it records it. -/
theorem answer_record (rs : List OutcomeRecord) (b : Backend) :
    b.answer (.record rs) = ((b.record rs).1, (b.record rs).2.map .recorded) := by
  cases b <;> rfl

/-- Looks leave the store as it is. -/
theorem answer_look {call : StoreCall} (hclaim : call.isClaim = false)
    (hrecord : call.isRecord = false) (b : Backend) : (b.answer call).1 = b := by
  cases call with
  | claim limit now => cases hclaim
  | record rs => cases hrecord
  | target id => cases b <;> rfl
  | range target owner first last => cases b <;> rfl

/-- What the claims are answered when calls are answered one after another. -/
def handedOut : List StoreCall → Backend → List (Except StoreError (List Target))
  | [], _ => []
  | .claim limit now :: rest, b =>
    (b.claim limit now).2 :: handedOut rest (b.claim limit now).1
  | call :: rest, b => handedOut rest (b.answer call).1

/-- A call that is no claim only changes the store. -/
theorem handedOut_cons_of_not_claim {call : StoreCall} (h : call.isClaim = false)
    (rest : List StoreCall) (b : Backend) :
    handedOut (call :: rest) b = handedOut rest (b.answer call).1 := by
  cases call with
  | claim limit now => cases h
  | record rs => rfl
  | target id => rfl
  | range target owner first last => rfl

end Backend

end PeerWatch
