import PeerWatch.Pipeline.Basic
import PeerWatch.Tally

/-!
# The workers

The workers share the channel of targets.  Each takes a target, probes it,
counts the outcome and hands it on, again and again, until there will be no
more targets or nobody takes its outcome.  When it has counted enough it
offers to report; what is unreported at the end it reports then.  A probe may
tear its worker down, and what that one had counted is lost.

* `Worker.step` — what an event makes of a worker.
-/

namespace PeerWatch

/-- What a worker is about. -/
inductive WorkerPhase where
  | waiting
  | probing (t : Target)
  | emitting (o : Outcome)
  | offering
  /-- What is unreported is to be reported at last. -/
  | reporting
  | ended
  | tornDown
deriving DecidableEq

/-- One of those who probe. -/
structure Worker where
  phase : WorkerPhase
  /-- Probes counted but not reported. -/
  unreported : Counters
deriving DecidableEq

/-- What a worker can do, or what happens to it. -/
inductive WorkerEvent where
  | took (t : Target)
  | finished
  | probed (o : Outcome)
  | tornDown
  | emitted
  | turnedAway
  /-- Its offer to report is accepted or not. -/
  | offered (accepted : Bool)
  /-- Its last report is accepted, or nobody takes it. -/
  | reported (accepted : Bool)
deriving DecidableEq

namespace Worker

/-- A worker that waits for its first target. -/
def fresh : Worker := ⟨.waiting, .zero⟩

instance : Inhabited Worker := ⟨fresh⟩

/-- After so many probes a worker offers a report. -/
def reportEvery : Nat := 32

def pending (w : Worker) : Report := .probed w.unreported

/-- The worker after an event; nothing, if the event cannot happen to it. -/
def step (w : Worker) : WorkerEvent → Option Worker
  | .took t =>
    match w.phase with
    | .waiting => some { w with phase := .probing t }
    | _ => none
  | .finished =>
    match w.phase with
    | .waiting => some { w with phase := .reporting }
    | _ => none
  | .probed o =>
    match w.phase with
    | .probing t =>
      if o.target = t.id then
        some ⟨.emitting o, w.unreported.observeOutcome o⟩
      else none
    | _ => none
  | .tornDown =>
    match w.phase with
    | .probing _ => some { w with phase := .tornDown }
    | _ => none
  | .emitted =>
    match w.phase with
    | .emitting _ =>
      some { w with phase := if reportEvery ≤ w.unreported.probed then .offering else .waiting }
    | _ => none
  | .turnedAway =>
    match w.phase with
    | .emitting _ => some { w with phase := .reporting }
    | _ => none
  | .offered accepted =>
    match w.phase with
    | .offering => some ⟨.waiting, if accepted then .zero else w.unreported⟩
    | _ => none
  | .reported _ =>
    match w.phase with
    | .reporting => some ⟨.ended, .zero⟩
    | _ => none

/-- Whether the worker is gone, and its ends of the channels with it. -/
def isGone (w : Worker) : Bool := w.phase = .ended ∨ w.phase = .tornDown

end Worker

end PeerWatch
