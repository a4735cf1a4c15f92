import PeerWatch.Export.Window
import PeerWatch.LogFilter
import PeerWatch.Rehearsal.World
import PeerWatch.Settings.Basic

/-!
# The journal

What the prober says while it works, a line for each thing that happens: how
important it is, which part of the program says it, a message, and the values
that belong to it.  Lines are shown without the moment they were written at.

* `LogLine.text`;
* `Journal.shown` — the lines that pass a filter.
-/

namespace PeerWatch.CommandLine

/-- A line of the journal. -/
structure LogLine where
  level : LogLevel
  origin : String
  message : String
  fields : List (String × String)
deriving DecidableEq, Repr

/-- How a level is shown: its name in five columns, and its colour. -/
def levelMark : LogLevel → String × Nat
  | .off => ("", 0)
  | .error => ("ERROR", 31)
  | .warn => (" WARN", 33)
  | .info => (" INFO", 32)
  | .debug => ("DEBUG", 34)
  | .trace => ("TRACE", 35)

/-- A text in a style of the terminal. -/
def styled (style : Nat) (text : String) : String :=
  "\x1b[" ++ toString style ++ "m" ++ text ++ "\x1b[0m"

/-- A name in italics and its value. -/
def fieldText (field : String × String) : String :=
  " " ++ styled 3 field.1 ++ styled 2 "=" ++ field.2

/-- A line as the terminal shows it. -/
def LogLine.text (l : LogLine) : String :=
  let (level, colour) := levelMark l.level
  styled colour level ++ " " ++ styled 2 l.origin ++ styled 2 ":" ++ " " ++ l.message
    ++ String.join (l.fields.map fieldText)

/-- The lines that were logged, first one first. -/
abbrev Journal := List LogLine

namespace Journal

/-- The lines that pass a filter, as they are shown. -/
def shown (filter : LogFilter) (journal : Journal) : List String :=
  (journal.filter fun l => filter.passes l.origin l.level).map (·.text)

/-- The part of the program that a line of the loader comes from. -/
def loaderOrigin : String := "peer_prober::pipeline::loader"

/-- The origin of what workers and their pool say. -/
def workerOrigin : String := "peer_prober::probe::pool"

/-- The origin of what the recorder says. -/
def recorderOrigin : String := "peer_prober::pipeline::recorder"

/-- The origin of what the supervisor says. -/
def supervisorOrigin : String := "peer_prober::pipeline::supervisor"

/-- The origin of what the collector says. -/
def collectorOrigin : String := "peer_prober::pipeline::stats"

/-- The origin of what a database says. -/
def storeOrigin : String := "peer_prober::store::sql"

/-- The origin of what is said while the program gets ready. -/
def startupOrigin : String := "peer_prober::lifecycle::startup"

/-- The origin of what the metrics say. -/
def metricsOrigin : String := "peer_prober::observability::metrics"

/-- The origin of what the program itself says. -/
def programOrigin : String := "peer_prober"

/-- The program begins, with settings that make sense. -/
def opening (s : Settings) : Journal :=
  [⟨.info, programOrigin, "peer-prober starting", [("version", Text.quoteString "0.1.0")]⟩,
   ⟨.info, programOrigin, "Configuration loaded",
    [("owner", s.recorder.owner.text), ("targets", toString s.targets.length),
     ("batch_size", toString s.loader.batchSize), ("concurrency", toString s.probe.concurrency),
     ("timeout_ms", toString s.probe.timeout), ("chunk_size", toString s.recorder.chunkSize),
     ("store", s.store.path)]⟩]

/-- The metrics can be read at an address. -/
def listening (address : String) : Journal :=
  [⟨.info, metricsOrigin, "Metrics endpoint listening", [("address", address)]⟩]

/-- A database was opened; `version` is the version it had. -/
def opened (path : String) (version : Int) : Journal :=
  [if Database.schemaVersion ≤ version then
     ⟨.debug, storeOrigin, "Store schema is up to date", [("version", toString version)]⟩
   else
     ⟨.info, storeOrigin, "Applied store migration",
      [("version", toString Database.schemaVersion),
       ("description", Text.quoteString "targets and daily history")]⟩,
   ⟨.info, storeOrigin, "Store opened", [("path", path)]⟩]

/-- The store is open and has the targets of the settings. -/
def ready (path : String) (targets : Nat) : Journal :=
  [⟨.info, startupOrigin, "Store ready", [("path", path), ("targets", toString targets)]⟩]

/-- Supervisor and stages begin, each with the sizes it was given. -/
def started (s : Settings) : Journal :=
  [⟨.info, supervisorOrigin, "Pipeline started",
    [("capacity", toString (System.channelCapacity s.channels.capacity))]⟩,
   ⟨.info, loaderOrigin, "Loader starting",
    [("batch_size", toString s.loader.batchSize),
     ("idle_backoff_ms", toString s.loader.idleBackoff)]⟩,
   ⟨.info, workerOrigin, "Probe pool starting",
    [("concurrency", toString (max s.probe.concurrency 1)),
     ("deadline_ms", toString s.probe.timeout)]⟩,
   ⟨.info, recorderOrigin, "Recorder starting",
    [("owner", s.recorder.owner.text), ("chunk_size", toString (max s.recorder.chunkSize 1)),
     ("flush_interval_ms", toString s.recorder.flushInterval)]⟩]

/-- A claim: how much it gave, or that it gave nothing and the loader rests. -/
def claim (s : Settings) (call : Rehearsal.ClaimCall) : Journal :=
  match call.got with
  | some (.ok 0) =>
    [⟨.debug, loaderOrigin, "No stale targets, backing off",
      [("backoff_ms", toString s.loader.idleBackoff)]⟩]
  | some (.ok count) =>
    [⟨.debug, loaderOrigin, "Claimed stale targets", [("claimed", toString count)]⟩]
  | _ => []

/-- The outcome of a probe.  One whose failure fits no class is a warning. -/
def probe (o : Outcome) : LogLine :=
  let target := ("target_id", o.target.text)
  match o.failure with
  | none =>
    ⟨.debug, workerOrigin, "Probe succeeded",
     [target, ("latency_ms", toString o.latency.toNat)]⟩
  | some f =>
    if f.cls = .unknown then
      ⟨.warn, workerOrigin, "Probe failed with unclassified error", [target, ("error", f.message)]⟩
    else
      ⟨.debug, workerOrigin, "Probe failed",
       [target, ("class", f.cls.name), ("error", f.message)]⟩

/-- A batch, its probes first. -/
def batch (call : Rehearsal.BatchCall) : Journal :=
  let size := ("outcomes", toString call.outcomes.length)
  call.outcomes.map (fun r => probe r.outcome) ++
    match call.done with
    | some (_, .ok r) =>
      [⟨.debug, recorderOrigin, "Batch committed",
        [size, ("targets_updated", toString r.targetsUpdated),
         ("slots_updated", toString r.slotsUpdated), ("rows_inserted", toString r.rowsInserted)]⟩]
    | some (_, .error e) =>
      [⟨.error, recorderOrigin, "Batch rolled back", [size, ("error", e.message)]⟩]
    | none => []

/-- The totals so far. -/
def progress (t : Totals) : LogLine :=
  ⟨.info, collectorOrigin, "Pipeline progress",
   [("claimed", toString t.claimed), ("probed", toString t.probed), ("ok", toString t.succeeded),
    ("failed", toString t.failed), ("unknown", toString t.unknown),
    ("recorded", toString t.recorded), ("batches", toString t.batches)]⟩

/-- What a stage says itself when it ends well. -/
def farewell (t : Totals) : Stage → Journal
  | .loader =>
    if t.probed < t.claimed then
      [⟨.info, loaderOrigin, "Loader stopping with claimed targets unsent",
        [("unsent", toString (t.claimed - t.probed))]⟩]
    else [⟨.info, loaderOrigin, "Loader stopped", []⟩]
  | .probe => []
  | .recorder => [⟨.info, recorderOrigin, "Recorder drained", []⟩]

/-- What the supervisor says of a stage that has ended with an error. -/
def stageFailure (isFirst : Bool) (stage : Stage) (e : PipelineError) : LogLine :=
  let fields := [("stage", stage.name), ("error", e.message)]
  if isFirst then ⟨.error, supervisorOrigin, "Stage failed, stopping pipeline", fields⟩
  else ⟨.warn, supervisorOrigin, "Stage failed after pipeline already failing", fields⟩

/-- The ends of the stages, in order; the flag tells whether all stages before
have ended well. -/
def stageEnds (t : Totals) : Bool → List (Stage × Except PipelineError Unit) → Journal
  | _, [] => []
  | allWell, (stage, result) :: rest =>
    (if stage = .probe then [⟨.info, workerOrigin, "Probe pool drained", []⟩] else []) ++
      match result with
      | .ok () =>
        farewell t stage ++
          ⟨.info, supervisorOrigin, "Stage finished", [("stage", stage.name)]⟩
            :: stageEnds t allWell rest
      | .error e => stageFailure allWell stage e :: stageEnds t false rest

/-- The prober is asked to end while it works. -/
def terminating (signal : Termination) : Journal :=
  [⟨.info, programOrigin, "Termination requested, draining pipeline", [("signal", signal.name)]⟩,
   ⟨.info, supervisorOrigin, "Pipeline draining", []⟩]

/-- The pipeline from its beginning to its end. -/
def pipeline (s : Settings) (signal : Option Termination) (w : Rehearsal.World) : Journal :=
  let v := w.sys.supervisor
  let totals := w.sys.collector.totals
  let asked := w.beforeStop.any fun seen => seen.1 = .running
  started s
    ++ w.store.claims.reverse.flatMap (claim s)
    ++ w.store.batches.reverse.flatMap batch
    ++ (if asked then (signal.map terminating).getD [] else [])
    ++ stageEnds totals true w.sys.ended
    ++ [progress totals,
        ⟨.debug, collectorOrigin, "Stats collector exiting", []⟩,
        ⟨.info, supervisorOrigin, "Pipeline terminated", [("state", v.state.name)]⟩,
        ⟨.info, programOrigin, "Pipeline finished",
         [("state", v.state.name), ("claimed", toString totals.claimed),
          ("probed", toString totals.probed), ("recorded", toString totals.recorded)]⟩]

def failed (e : PipelineError) : Journal :=
  [⟨.error, programOrigin, "Pipeline failed", [("error", e.message)]⟩]

/-- The history of some days was exported to a directory. -/
def exported (dir : Export.Directory) (first last : Calendar.Day) : Journal :=
  dir.files.entries.map (fun (name, bytes) =>
    ⟨.debug, startupOrigin, "History exported",
     [("records", toString (bytes.length / Export.recordLength)), ("path", dir.filePath name)]⟩)
  ++ [⟨.info, startupOrigin, "History export complete",
       [("files", toString dir.files.size), ("from", first.text), ("to", last.text),
        ("dir", dir.path)]⟩]

/-- The program has shut down. -/
def closing : Journal := [⟨.info, programOrigin, "Shutdown complete", []⟩]

end Journal

end PeerWatch.CommandLine
