import PeerWatch.Pipeline.Basic

/-!
# The supervisor

The supervisor notes how the stages end, one after another.  The first failure
goes into the error slot and is published before anything else is noted, and
any failure gives the shutdown signal.  When all stages and the collector are
gone, the final state is published, and those who wait for it are told.

* `Supervisor.step` — what an event makes of a supervisor;
* `Supervisor.verdict?` — what those who wait are told.
-/

namespace PeerWatch

/-- What a supervisor is about. -/
inductive SupervisorPhase where
  | watching
  /-- The first failure is in the slot and is to be published. -/
  | publishing
  | alarming
  /-- The final state is published, and those who wait are to be told. -/
  | closing
  | closed
deriving DecidableEq, Repr

/-- What watches over the stages. -/
structure Supervisor where
  phase : SupervisorPhase
  state : RunState
  errors : ErrorSlot
  noted : Nat
deriving DecidableEq

inductive SupervisorEvent where
  | noted
  | published
  | alarmed
  | concluded
  | closed
deriving DecidableEq

namespace Supervisor

/-- A supervisor of stages that all run. -/
def fresh : Supervisor := ⟨.watching, .running, .vacant, 0⟩

/-- How many stages it watches: loader, pool and recorder. -/
def stageCount : Nat := 3

/-- The supervisor after a stage was noted. -/
def note (v : Supervisor) (stage : Stage) : Except PipelineError Unit → Supervisor
  | .ok () => { v with noted := v.noted + 1 }
  | .error e =>
    let (errors, kept) := v.errors.report stage e
    { v with
      phase := if kept then .publishing else .alarming
      errors := errors
      noted := v.noted + 1 }

/-- The state in which it leaves the pipeline. -/
def finalState (v : Supervisor) : RunState := if v.errors.held.isSome then .failed else .stopped

/-- The supervisor after an event, where `next` is the stage that has ended
next, if one has; nothing, if the event cannot happen to it. -/
def step (v : Supervisor) (next : Option (Stage × Except PipelineError Unit))
    (e : SupervisorEvent) : Option Supervisor :=
  match e, v.phase, next with
  | .noted, .watching, some (stage, result) => some (v.note stage result)
  | .published, .publishing, _ => some { v with phase := .alarming, state := .failed }
  | .alarmed, .alarming, _ => some { v with phase := .watching }
  | .concluded, .watching, _ =>
    if v.noted = stageCount then some { v with phase := .closing, state := v.finalState } else none
  | .closed, .closing, _ => some { v with phase := .closed }
  | _, _, _ => none

/-- The supervisor after somebody has asked for an end. -/
def asked (v : Supervisor) : Supervisor :=
  { v with state := if v.state = .running then .draining else v.state }

/-- What those who wait for the end are told, once they are told. -/
def verdict? (v : Supervisor) : Option RunState :=
  if v.phase = .closed then some v.state else none

end Supervisor

end PeerWatch
