import PeerWatch.Pipeline.Basic
import PeerWatch.Settings.Basic
import PeerWatch.Store.Backend
import PeerWatch.Tally

/-!
# The recorder

The recorder gathers outcomes in a buffer and commits them as a batch when the
buffer is full, when a tick finds something in it, and when there will be no
more outcomes.  After a batch, and when a tick finds nothing, it offers to
report; what is unreported at the end it reports then.  The first batch that
fails ends it.  A recorder that could not keep its times or its buffer does
not begin.

* `Recorder.step` — what an event makes of a recorder;
* `Recorder.result?` — how it ended;
* `recordOutcomes` — one batch on its way to the store.
-/

namespace PeerWatch

/-- What makes a recorder commit its buffer. -/
inductive FlushCause where
  | full
  | tick
  | close
deriving DecidableEq, Repr

/-- What a recorder is about. -/
inductive RecorderPhase where
  /-- It has not begun. -/
  | beginning
  | listening
  | flushing (cause : FlushCause)
  | offering (cause : FlushCause)
  /-- What is unreported is to be reported at last. -/
  | reporting
  | ended
  /-- It could not begin. -/
  | tornDown
deriving DecidableEq

/-- The recorder, with what it did not commit yet and what it did not report yet. -/
structure Recorder where
  chunkSize : Nat
  flushInterval : Nat
  phase : RecorderPhase
  buffer : List Outcome
  /-- Outcomes and batches committed but not reported. -/
  outcomes : Nat
  batches : Nat
  failure : Option StoreError
deriving DecidableEq

/-- What the recorder can do, or what happens to it. -/
inductive RecorderEvent where
  | begun
  | received (o : Outcome)
  | ticked
  /-- A tick finds nothing, and its offer to report is accepted or not. -/
  | idled (accepted : Bool)
  | finished
  | committed
  | commitFailed (e : StoreError)
  /-- Its offer to report is accepted or not. -/
  | offered (accepted : Bool)
  /-- Its last report is accepted, or nobody takes it. -/
  | reported (accepted : Bool)
  | tornDown
deriving DecidableEq

namespace Recorder

/-- A recorder that has not begun; its batches have at least one outcome. -/
def fresh (s : RecorderSettings) : Recorder :=
  ⟨max s.chunkSize 1, s.flushInterval, .beginning, [], 0, 0, none⟩

/-- The most outcomes there can be room for in memory: 2^63 - 1 bytes, 80 for
each of them. -/
def chunkBound : Nat := 115292150460684697

/-- Whether its ticker and its buffer can be made. -/
def canBegin (r : Recorder) : Bool := 0 < r.flushInterval && r.chunkSize ≤ chunkBound

def pending (r : Recorder) : Report := .committed r.outcomes r.batches

/-- The recorder after an offer to report. -/
def afterOffer (r : Recorder) (accepted : Bool) : Recorder :=
  if accepted then { r with outcomes := 0, batches := 0 } else r

/-- The recorder after an event; nothing, if the event cannot happen to it. -/
def step (r : Recorder) (e : RecorderEvent) : Option Recorder :=
  match e, r.phase with
  | .begun, .beginning => if r.canBegin then some { r with phase := .listening } else none
  | .tornDown, .beginning => if r.canBegin then none else some { r with phase := .tornDown }
  | .received o, .listening =>
    let buffer := r.buffer ++ [o]
    some { r with buffer := buffer
                  phase := if r.chunkSize ≤ buffer.length then .flushing .full else .listening }
  | .ticked, .listening =>
    if r.buffer.isEmpty then none else some { r with phase := .flushing .tick }
  | .idled accepted, .listening => if r.buffer.isEmpty then some (r.afterOffer accepted) else none
  | .finished, .listening =>
    some { r with phase := if r.buffer.isEmpty then .reporting else .flushing .close }
  | .committed, .flushing cause =>
    some { r with outcomes := r.outcomes + r.buffer.length
                  batches := r.batches + 1
                  buffer := []
                  phase := if cause = .close then .reporting else .offering cause }
  | .commitFailed e, .flushing _ => some { r with phase := .reporting, failure := some e }
  | .offered accepted, .offering _ => some { r.afterOffer accepted with phase := .listening }
  | .reported _, .reporting => some { r with phase := .ended, outcomes := 0, batches := 0 }
  | _, _ => none

/-- Whether the recorder is gone, and its ends of the channels with it. -/
def isGone (r : Recorder) : Bool := r.phase = .ended ∨ r.phase = .tornDown

/-- How it ended, once it is gone. -/
def result? (r : Recorder) : Option (Except PipelineError Unit) :=
  match r.phase with
  | .ended =>
    match r.failure with
    | none => some (.ok ())
    | some e => some (.error (.persist e))
  | .tornDown => some (.error (.torn .recorder))
  | _ => none

end Recorder

/-- The records of a batch of outcomes, for an owner. -/
def recordsOf (owner : OwnerId) (outcomes : List Outcome) : List OutcomeRecord :=
  outcomes.map (OutcomeRecord.ofOutcome owner)

/-- A batch of outcomes recorded for an owner; of an empty one the store is
told nothing. -/
def recordOutcomes (owner : OwnerId) (outcomes : List Outcome) (backend : Backend) :
    Backend × Except PipelineError BatchReport :=
  if outcomes.isEmpty then (backend, .ok .zero)
  else
    let (backend, result) := backend.record (recordsOf owner outcomes)
    (backend, result.mapError .persist)

end PeerWatch
