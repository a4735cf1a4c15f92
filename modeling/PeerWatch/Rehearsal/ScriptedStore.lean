import PeerWatch.Store.Backend

/-!
# A store that plays a part

In a rehearsal the pipeline works with a real store behind a script: claims
take a while, the moment of the `n`-th claim is fixed, from some claim on there
is nothing more to claim, and one claim may fail.  Every call is written down.
-/

namespace PeerWatch.Rehearsal

open Calendar

/-- A claim that was begun. -/
structure ClaimCall where
  begun : Nat
  limit : Nat
  /-- How many targets it gave; `none` if it was given up. -/
  got : Option (Except StoreError Nat)

/-- A batch that was begun. -/
structure BatchCall where
  begun : Nat
  outcomes : List OutcomeRecord
  /-- When and how it was done; `none` if it was given up. -/
  done : Option (Nat × Except StoreError BatchReport)

/-- A store behind a script. -/
structure ScriptedStore where
  backend : Backend
  claimSpan : Nat
  maxClaims : Nat
  failAt : Option Nat
  /-- The moment of the first claim, in seconds; the others follow at intervals
  of a second. -/
  epoch : Int
  /-- The claims so far, last one first. -/
  claims : List ClaimCall
  /-- The batches so far, last one first. -/
  batches : List BatchCall

/-- The moment of the first claim, where none is chosen. -/
def standardEpoch : Int := 1000000

namespace ScriptedStore

/-- A store with its script, before any call. -/
def ofBackend (backend : Backend) (claimSpan maxClaims : Nat) (failAt : Option Nat) :
    ScriptedStore := ⟨backend, claimSpan, maxClaims, failAt, standardEpoch, [], []⟩

/-- The moment of the calendar that a claim is given. -/
def claimMoment (s : ScriptedStore) (n : Nat) : Instant :=
  (Instant.ofParts? (s.epoch + n) 0).getD default

def beginClaim (s : ScriptedStore) (now limit : Nat) : ScriptedStore :=
  { s with claims := ⟨now, limit, none⟩ :: s.claims }

/-- Whether the claim under way tears its caller down. -/
def claimTears (s : ScriptedStore) : Bool :=
  match s.claims with
  | [] => false
  | call :: earlier =>
    s.failAt ≠ some earlier.length && earlier.length < s.maxClaims
      && s.backend.claimTears call.limit

/-- The claim under way ends. -/
def endClaim (s : ScriptedStore) : ScriptedStore × Except StoreError (List Target) :=
  match s.claims with
  | [] => (s, .ok [])
  | call :: earlier =>
    let n := earlier.length
    let (backend, result) :=
      if s.failAt = some n then (s.backend, .error (.unavailable (.described "scripted")))
      else if s.maxClaims ≤ n then (s.backend, .ok [])
      else s.backend.claim call.limit (s.claimMoment n)
    ({ s with backend := backend
              claims := { call with got := some (result.map (·.length)) } :: earlier }, result)

/-- A batch begins. -/
def beginBatch (s : ScriptedStore) (now : Nat) (records : List OutcomeRecord) : ScriptedStore :=
  { s with batches := ⟨now, records, none⟩ :: s.batches }

/-- The batch that began last is recorded, and its answer noted. -/
def endBatch (s : ScriptedStore) (now : Nat) : ScriptedStore × Except StoreError BatchReport :=
  match s.batches with
  | [] => (s, .ok .zero)
  | call :: earlier =>
    let (backend, result) := s.backend.record call.outcomes
    ({ s with backend := backend
              batches := { call with done := some (now, result) } :: earlier }, result)

end ScriptedStore

end PeerWatch.Rehearsal
