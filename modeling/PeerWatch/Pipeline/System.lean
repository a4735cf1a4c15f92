import PeerWatch.Pipeline.Collector
import PeerWatch.Pipeline.Loader
import PeerWatch.Pipeline.Pool
import PeerWatch.Pipeline.Recorder
import PeerWatch.Pipeline.Supervisor
import PeerWatch.Shutdown

/-!
# The pipeline as a whole

Loader, workers and recorder are joined by two channels; all of them report
to a collector by a third one.  The supervisor notes how the stages end.  The
shutdown signal, which reaches the loader alone, is given by the supervisor
when a stage has failed and by whoever asks the pipeline to stop.

A move is one event at one of the parts.  It may be made when the part is in
the phase for it and the channels allow it; which of the possible moves is
made when is left open here.

* `System.step` — what a move makes of the pipeline.
-/

namespace PeerWatch

/-- The pipeline: its stages, the channels between them and the signal to shut down. -/
structure System where
  loader : Loader
  workers : List Worker
  pool : Pool
  recorder : Recorder
  collector : Collector
  targets : Channel Target
  outcomes : Channel Outcome
  reports : Channel Report
  shutdown : Shutdown
  /-- Stages that have ended, and how, in the order in which they ended. -/
  ended : List (Stage × Except PipelineError Unit)
  supervisor : Supervisor
  /-- How many have asked for an end and have yet to give the signal. -/
  asking : Nat

/-- One event at one part of the pipeline. -/
inductive Move where
  | loader (e : LoaderEvent)
  | worker (i : Nat) (e : WorkerEvent)
  | pool (e : PoolEvent)
  | recorder (e : RecorderEvent)
  | collector (e : CollectorEvent)
  | supervisor (e : SupervisorEvent)
  | ask
  /-- Somebody who has asked for an end gives the signal. -/
  | signal
deriving DecidableEq

namespace System

/-- The places of a channel for targets or outcomes, which has at least one. -/
def channelCapacity (capacity : Nat) : Nat := max capacity 1

/-- The places of the channel for reports, to which every stage sends. -/
def reportCapacity (capacity : Nat) : Nat := channelCapacity capacity * 4

/-- A pipeline that begins, with the loader listening for the signal. -/
def start (s : Settings) : System where
  loader := .fresh s.loader.batchSize
  workers := List.replicate (max s.probe.concurrency 1) .fresh
  pool := .fresh (max s.probe.concurrency 1)
  recorder := .fresh s.recorder
  collector := .fresh s.observability.statsInterval
  targets := .ofCapacity (channelCapacity s.channels.capacity)
  outcomes := .ofCapacity (channelCapacity s.channels.capacity)
  reports := .ofCapacity (reportCapacity s.channels.capacity)
  shutdown := Shutdown.fresh.subscribe
  ended := []
  supervisor := .fresh
  asking := 0

/-- No worker will take or emit anything. -/
def workersGone (s : System) : Bool := s.workers.all (·.isGone)

/-- The channel of targets is drained, and no more will come. -/
def targetsFinished (s : System) : Bool := s.loader.isGone && s.targets.queue.isEmpty

/-- The channel of outcomes is drained, and no more will come. -/
def outcomesFinished (s : System) : Bool := s.workersGone && s.outcomes.queue.isEmpty

/-- Whether there will be no more reports. -/
def reportsFinished (s : System) : Bool :=
  s.loader.isGone && s.workersGone && s.recorder.isGone && s.reports.queue.isEmpty

/-- The channel of reports after an offer.  An offer may be turned down, even
if there is room, for those who wait go first. -/
def offerReport (reports : Channel Report) (pending : Report) (accepted : Bool) :
    Option (Channel Report) :=
  if pending.isNothing || !accepted then some reports else reports.push? pending

/-- The channel of reports after a last report, which is only lost when nobody
takes it. -/
def lastReport (reports : Channel Report) (pending : Report) (accepted : Bool) :
    Option (Channel Report) :=
  if pending.isNothing then some reports
  else if accepted then reports.push? pending
  else if reports.isOpen then none
  else some reports

/-- A stage has ended with a result; without a result it goes on. -/
def endStage (s : System) (stage : Stage) (result : Option (Except PipelineError Unit)) : System :=
  match result with
  | none => s
  | some result => { s with ended := s.ended ++ [(stage, result)] }

/-- What the event at the loader does to the rest of the pipeline; `before` is
the loader as it was. -/
def loaderEffect (s : System) (before : Loader) : LoaderEvent → Option System
  | .looked => if s.shutdown.waitsFor 0 then none else some s
  | .signalled =>
    let (shutdown, got) := s.shutdown.receive 0
    if got then some { s with shutdown := shutdown } else none
  | .claimed _ | .claimFailed _ | .rested => some s
  | .offered accepted =>
    (offerReport s.reports before.pending accepted).map fun reports => { s with reports := reports }
  | .handed =>
    before.next?.bind fun t => (s.targets.push? t).map fun targets => { s with targets := targets }
  | .turnedAway => if s.targets.isOpen then none else some s
  | .reported accepted =>
    (lastReport s.reports before.pending accepted).map fun reports =>
      { s with reports := reports }.endStage .loader s.loader.result?
  | .tornDown => some (s.endStage .loader s.loader.result?)

/-- What the event at a worker does to the rest of the pipeline; `before` is
the worker as it was. -/
def workerEffect (s : System) (before : Worker) : WorkerEvent → Option System
  | .took t =>
    match s.targets.pop? with
    | some (first, targets) => if first = t then some { s with targets := targets } else none
    | none => none
  | .finished => if s.targetsFinished then some s else none
  | .probed _ | .tornDown => some s
  | .emitted =>
    match before.phase with
    | .emitting o => (s.outcomes.push? o).map fun outcomes => { s with outcomes := outcomes }
    | _ => none
  | .turnedAway => if s.outcomes.isOpen then none else some s
  | .offered accepted =>
    (offerReport s.reports before.pending accepted).map fun reports => { s with reports := reports }
  | .reported accepted =>
    (lastReport s.reports before.pending accepted).map fun reports => { s with reports := reports }

/-- What the event at the recorder does to the rest of the pipeline; `before`
is the recorder as it was. -/
def recorderEffect (s : System) (before : Recorder) : RecorderEvent → Option System
  | .received o =>
    match s.outcomes.pop? with
    | some (first, outcomes) => if first = o then some { s with outcomes := outcomes } else none
    | none => none
  | .finished => if s.outcomesFinished then some s else none
  | .begun | .ticked | .committed | .commitFailed _ => some s
  | .idled accepted | .offered accepted =>
    (offerReport s.reports before.pending accepted).map fun reports => { s with reports := reports }
  | .reported accepted =>
    (lastReport s.reports before.pending accepted).map fun reports =>
      { s with reports := reports, outcomes := s.outcomes.close }.endStage .recorder
        s.recorder.result?
  | .tornDown =>
    some ({ s with outcomes := s.outcomes.close }.endStage .recorder s.recorder.result?)

/-- What the event at the pool does to the rest of the pipeline.  When it has
ended, nobody takes targets any more. -/
def poolEffect (s : System) : PoolEvent → System
  | .noted _ => s
  | .ended => { s with targets := s.targets.close }.endStage .probe (some s.pool.result)

/-- What the event at the collector does to the rest of the pipeline. -/
def collectorEffect (s : System) : CollectorEvent → Option System
  | .begun => some s
  | .took r =>
    match s.reports.pop? with
    | some (first, reports) => if first = r then some { s with reports := reports } else none
    | none => none
  | .finished =>
    if s.reportsFinished then some { s with reports := s.reports.close } else none
  | .tornDown => some { s with reports := s.reports.close }

/-- The stage that has ended and is to be noted next. -/
def nextEnded? (s : System) : Option (Stage × Except PipelineError Unit) :=
  s.ended[s.supervisor.noted]?

/-- What the event at the supervisor does to the rest of the pipeline. -/
def supervisorEffect (s : System) : SupervisorEvent → Option System
  | .noted | .published | .closed => some s
  | .alarmed => some { s with shutdown := s.shutdown.trigger.1 }
  | .concluded => if s.collector.isGone then some s else none

/-- The pipeline after a move; nothing, if the move cannot be made. -/
def step (s : System) : Move → Option System
  | .loader e =>
    (s.loader.step e).bind fun l => { s with loader := l }.loaderEffect s.loader e
  | .worker i e =>
    s.workers[i]?.bind fun before =>
      (before.step e).bind fun w =>
        { s with workers := s.workers.set i w }.workerEffect before e
  | .pool e => (s.pool.step s.workers e).map fun p => { s with pool := p }.poolEffect e
  | .recorder e =>
    (s.recorder.step e).bind fun r => { s with recorder := r }.recorderEffect s.recorder e
  | .collector e => (s.collector.step e).bind fun c => { s with collector := c }.collectorEffect e
  | .supervisor e =>
    (s.supervisor.step s.nextEnded? e).bind fun v =>
      { s with supervisor := v }.supervisorEffect e
  | .ask => some { s with supervisor := s.supervisor.asked, asking := s.asking + 1 }
  | .signal =>
    if 0 < s.asking then
      some { s with shutdown := s.shutdown.trigger.1, asking := s.asking - 1 }
    else none

end System

end PeerWatch
