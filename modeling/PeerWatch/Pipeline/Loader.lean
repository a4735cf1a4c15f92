import PeerWatch.Pipeline.Basic
import PeerWatch.Tally

/-!
# The loader

The loader claims targets and hands them on, one batch after another.  A claim
that gives nothing is followed by a rest, and each claim that gives something
by an offer to report it.  Before each claim, each target it hands on and the
end of each rest the loader looks for the shutdown signal.  It ends when the
signal reaches it, when nobody takes its targets any more, or when a claim
fails; the last thing it does is to report what it has not reported yet.

* `Loader.step` — what an event makes of a loader;
* `Loader.result?` — how it ended.
-/

namespace PeerWatch

/-- What a loader is about. -/
inductive LoaderPhase where
  | claiming
  /-- A batch was claimed and is to be reported. -/
  | offering (batch : List Target)
  /-- The rest of a batch is to be handed on. -/
  | handing (rest : List Target)
  | resting
  /-- What is unreported is to be reported at last. -/
  | reporting
  | ended
  | tornDown
deriving DecidableEq

/-- Who claims targets and hands them on. -/
structure Loader where
  /-- How many targets a claim asks for. -/
  batchSize : Nat
  phase : LoaderPhase
  /-- Whether it looked for the shutdown signal, and found none, before what it
  does next. -/
  hasLooked : Bool
  /-- Targets claimed but not reported. -/
  unreported : Nat
  failure : Option StoreError
deriving DecidableEq

/-- What may happen to a loader. -/
inductive LoaderEvent where
  /-- It looks for the shutdown signal and finds none. -/
  | looked
  | signalled
  | claimed (batch : List Target)
  | claimFailed (e : StoreError)
  /-- Its offer to report is accepted or not. -/
  | offered (accepted : Bool)
  | handed
  | turnedAway
  | rested
  /-- Its last report is accepted, or nobody takes it. -/
  | reported (accepted : Bool)
  | tornDown
deriving DecidableEq

namespace Loader

/-- A loader before its first claim. -/
def fresh (batchSize : Nat) : Loader := ⟨batchSize, .claiming, false, 0, none⟩

/-- The report of what is unreported. -/
def pending (l : Loader) : Report := .claimed l.unreported

/-- The target to be handed on next. -/
def next? (l : Loader) : Option Target :=
  match l.phase with
  | .handing (t :: _) => some t
  | _ => none

/-- The loader in another phase, in which it has not looked for the signal. -/
def enter (l : Loader) (phase : LoaderPhase) : Loader :=
  { l with phase := phase, hasLooked := false }

/-- The loader with targets still to be handed on. -/
def handing (l : Loader) : List Target → Loader
  | [] => l.enter .claiming
  | rest => l.enter (.handing rest)

/-- The loader after an event; nothing, if the event cannot happen to it.  That no claim
gives more than it was asked for is what a store promises: the loader takes what it is given,
and a longer batch is no event here because no store has one. -/
def step (l : Loader) (e : LoaderEvent) : Option Loader :=
  match e, l.phase, l.hasLooked with
  | .looked, .claiming, false => some { l with hasLooked := true }
  | .looked, .resting, false => some { l with hasLooked := true }
  | .looked, .handing _, false => some { l with hasLooked := true }
  | .signalled, .claiming, _ => some (l.enter .reporting)
  | .signalled, .resting, _ => some (l.enter .reporting)
  | .signalled, .handing _, _ => some (l.enter .reporting)
  | .claimed [], .claiming, true => some (l.enter .resting)
  | .claimed batch, .claiming, true =>
    if batch.length ≤ l.batchSize then
      some { l.enter (.offering batch) with unreported := l.unreported + batch.length }
    else none
  | .claimFailed e, .claiming, true => some { l.enter .reporting with failure := some e }
  | .tornDown, .claiming, true => some (l.enter .tornDown)
  | .offered accepted, .offering batch, _ =>
    some ({ l with unreported := if accepted then 0 else l.unreported }.handing batch)
  | .handed, .handing (_ :: rest), true => some (l.handing rest)
  | .turnedAway, .handing (_ :: _), true => some (l.enter .reporting)
  | .rested, .resting, true => some (l.enter .claiming)
  | .reported _, .reporting, _ => some { l.enter .ended with unreported := 0 }
  | _, _, _ => none

/-- Whether the loader is gone, and its ends of the channels with it. -/
def isGone (l : Loader) : Bool := l.phase = .ended ∨ l.phase = .tornDown

/-- How it ended, once it is gone. -/
def result? (l : Loader) : Option (Except PipelineError Unit) :=
  match l.phase with
  | .ended =>
    match l.failure with
    | none => some (.ok ())
    | some e => some (.error (.claim e))
  | .tornDown => some (.error (.torn .loader))
  | _ => none

end Loader

end PeerWatch
