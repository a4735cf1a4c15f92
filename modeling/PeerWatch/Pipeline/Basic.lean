import PeerWatch.Store.Basic

/-!
# The stages of the pipeline, and how they fail

A loader claims targets, a pool of workers probes them, a recorder commits
the outcomes.  The first stage that fails decides why the pipeline failed.

* `PipelineError`, `PipelineError.message`;
* `RunState` — from running to stopped or failed;
* `ErrorSlot` — keeps the first error.
-/

namespace PeerWatch

/-- A stage of the pipeline. -/
inductive Stage where
  | loader
  | probe
  | recorder
deriving DecidableEq, Repr

namespace Stage

/-- The name of a stage, as errors write it. -/
def name : Stage → String
  | .loader => "loader"
  | .probe => "probe"
  | .recorder => "recorder"

/-- The stage of a name. -/
def ofName? (name : String) : Option Stage :=
  [Stage.loader, .probe, .recorder].find? (·.name = name)

end Stage

/-- Why a pipeline failed. -/
inductive PipelineError where
  /-- The loader could not claim. -/
  | claim (e : StoreError)
  /-- The recorder could not commit. -/
  | persist (e : StoreError)
  | aborted (stage : Stage) (reason : String)
deriving DecidableEq

def PipelineError.message : PipelineError → String
  | .claim e => "claim failed: " ++ e.message
  | .persist e => "persist failed: " ++ e.message
  | .aborted stage reason => stage.name ++ " stage aborted: " ++ reason

/-- The error of a stage that was torn down by itself. -/
def PipelineError.torn (stage : Stage) : PipelineError := .aborted stage "task panicked"

/-- How far the life of a pipeline has gone. -/
inductive RunState where
  | running
  | draining
  | stopped
  | failed
deriving DecidableEq, Repr, Inhabited

namespace RunState

/-- The name of a state, as the journal writes it. -/
def name : RunState → String
  | .running => "running"
  | .draining => "draining"
  | .stopped => "stopped"
  | .failed => "failed"

/-- The number a state is shown as. -/
def code : RunState → Nat
  | .running => 0
  | .draining => 1
  | .stopped => 2
  | .failed => 3

/-- Whether no state follows. -/
def isTerminal : RunState → Bool
  | .stopped => true
  | .failed => true
  | _ => false

/-- The states, in the order in which a run can pass through them. -/
def all : List RunState := [.running, .draining, .stopped, .failed]

end RunState

/-- Holds the first error that was put in, with the stage it came from. -/
structure ErrorSlot where
  held : Option (Stage × PipelineError)
deriving DecidableEq

namespace ErrorSlot

/-- A slot that nobody filled. -/
def vacant : ErrorSlot := ⟨none⟩

/-- Puts an error in; the answer is whether it was kept. -/
def report (slot : ErrorSlot) (stage : Stage) (e : PipelineError) : ErrorSlot × Bool :=
  match slot.held with
  | none => (⟨some (stage, e)⟩, true)
  | some _ => (slot, false)

/-- The error that was put in first, if there is one. -/
def error? (slot : ErrorSlot) : Option PipelineError := slot.held.map (·.2)

end ErrorSlot

end PeerWatch
