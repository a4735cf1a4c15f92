import PeerWatch.Rehearsal.World
import PeerWatch.Settings.Basic

/-!
# Rehearsals of parts and of the whole

* `loaderRehearsal`, `poolRehearsal`, `recorderRehearsal` — one stage, with
  stand-ins at its channels;
* `pipelineRehearsal?` — the whole pipeline;
* `recordAll` — batches recorded one after another, without a clock.
-/

namespace PeerWatch.Rehearsal

/-- More steps than a rehearsal makes. -/
def stepLimit : Nat := 1000000000000

/-- A channel that is as good as unbounded. -/
def ample : Nat := 1000000000

namespace Staging

/-- Nobody acts, and nothing is chosen. -/
def blank : Staging where
  roster := []
  idleBackoff := 1
  timeout := 1
  owner := .nil
  collectFrom := 0
  stopAt := none

end Staging

namespace World

/-- The world at the beginning of a rehearsal. -/
def opening (staging : Staging) (sys : System) (store : ScriptedStore) (cast : Cast) : World where
  staging := staging
  clock := .start staging.roster
  sys := sys
  store := store
  cast := cast
  calls := .zero
  claimUntil := none
  restUntil := 0
  probes := sys.workers.map fun _ => default
  intake := none
  intakeLine := []
  outcomeLine := []
  reportLine := []
  tickDue := 0
  batchBegun := false
  toFeed := []
  events := []
  toSend := []
  targetSink := .fresh 0 none
  outcomeSink := .fresh 0 none
  beforeStop := none
  targetsTaken := []
  outcomesTaken := []
  reportsTaken := []
  stageEnds := []

/-- The world at the end of a rehearsal.  At the beginning the alarms are set
that do not hang on anything. -/
def finale (w : World) : World :=
  let w := (w.staging.stopAt.map (w.alarm .caller)).getD w
  let w := w.alarm .collector w.staging.collectFrom
  let w := (w.events.head?.map fun e => w.alarm .source e.moment).getD w
  w.play stepLimit

/-- The moment at which a stage ended. -/
def endOf (w : World) (stage : Stage) : Nat :=
  ((w.stageEnds.find? (·.1 = stage)).map (·.2)).getD 0

end World

/-- A system of which only the channels and the parts of a rehearsal count: a
loader, workers and a recorder that are gone. -/
def emptySystem (capacity reportCapacity : Nat) : System :=
  { System.start .standard with
    loader := (Loader.fresh 1).enter .ended
    workers := []
    pool := .fresh 0
    recorder := { Recorder.fresh {} with phase := .ended }
    targets := .ofCapacity capacity
    outcomes := .ofCapacity capacity
    reports := .ofCapacity reportCapacity }

/-- A loader over a store, with a sink for its targets. -/
def loaderRehearsal (settings : LoaderSettings) (store : ScriptedStore)
    (capacity reportCapacity collectFrom : Nat) (sink : Sink) (stopAt : Option Nat) : World :=
  let staging := { Staging.blank with
    roster := [.loader, .targetSink, .collector, .caller]
    idleBackoff := settings.idleBackoff
    collectFrom := collectFrom
    stopAt := stopAt }
  let sys := { emptySystem capacity reportCapacity with loader := .fresh settings.batchSize }
  { World.opening staging sys store (.ofParts []) with targetSink := sink }.finale

/-- A store that nobody asks. -/
def noStore : ScriptedStore := .ofBackend (.ledger .empty) 0 0 none

/-- The workers, with targets fed to them and a sink for their outcomes. -/
def poolRehearsal (concurrency timeout capacity : Nat) (cast : Cast) (targets : List Target)
    (sink : Sink) : World :=
  let workers := List.replicate (max concurrency 1) Worker.fresh
  let staging := { Staging.blank with
    roster := [.feeder, .outcomeSink, .collector]
      ++ (List.range workers.length).map .worker ++ [.pool]
    timeout := timeout }
  let sys := { emptySystem capacity ample with
    loader := .fresh 1
    workers := workers
    pool := .fresh workers.length }
  { World.opening staging sys noStore cast with toFeed := targets, outcomeSink := sink }.finale

/-- The recorder over a store, with a source of outcomes. -/
def recorderRehearsal (settings : RecorderSettings) (store : ScriptedStore)
    (capacity reportCapacity collectFrom : Nat) (events : List SourceEvent) : World :=
  let staging := { Staging.blank with
    roster := [.recorder, .source, .collector]
    owner := settings.owner
    collectFrom := collectFrom }
  let sys := { emptySystem capacity reportCapacity with
    workers := [.fresh]
    recorder := .fresh settings }
  { World.opening staging sys store (.ofParts []) with events := events }.finale

/-- The whole pipeline over a store; nothing, if channels of that size cannot
be made. -/
def pipelineRehearsal? (settings : Settings) (store : ScriptedStore) (cast : Cast)
    (stopAt : Option Nat) : Option World :=
  let sys := System.start settings
  if !Channel.isCapacity sys.reports.capacity then none
  else
    let staging := { Staging.blank with
      roster := [.caller, .collector, .supervisor, .loader, .recorder]
        ++ (List.range sys.workers.length).map .worker ++ [.pool]
      idleBackoff := settings.loader.idleBackoff
      timeout := settings.probe.timeout
      owner := settings.recorder.owner
      stopAt := stopAt }
    some (World.opening staging sys store cast).finale

/-- Batches of outcomes recorded one after another, as a recorder does it. -/
def recordAll (owner : OwnerId) (batches : List (List Outcome)) (backend : Backend) :
    Backend × List (Except PipelineError BatchReport) :=
  batches.foldl (fun (backend, reports) outcomes =>
    let (backend, result) := recordOutcomes owner outcomes backend
    (backend, reports ++ [result])) (backend, [])

end PeerWatch.Rehearsal
