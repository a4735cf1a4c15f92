import PeerWatch.CommandLine.Arguments
import PeerWatch.CommandLine.Complaint
import PeerWatch.CommandLine.Journal
import PeerWatch.Rehearsal.Bench

/-!
# The program

The prober follows its arguments, gets its settings, opens its store and runs
the pipeline until it is asked to end or the pipeline fails; then it exports
the history, if it is to.  What it has to ask the machine for stands in one
record, so that the program is the same on any machine.

Its pipeline runs on the clock of a rehearsal, over a network and a database
that the machine describes.

* `Host` — the machine;
* `run` — the program, up to its `Ending`.
-/

namespace PeerWatch.CommandLine

open Calendar Rehearsal

/-- The machine the program runs on. -/
structure Host (m : Type → Type) where
  /-- What lies at the path of a settings file. -/
  settingsFile : String → m Settings.FileState
  databaseFile : String → m DatabaseFile
  /-- Why a directory cannot be made at a path, if it cannot. -/
  directoryObstacle : String → m (Option SystemError)
  /-- An owner nobody has had before. -/
  newOwner : m OwnerId
  now : m Instant
  network : Network
  /-- Waits until the program is asked to end: by which signal, and how many
  milliseconds after the pipeline began. -/
  awaitTermination : m (Option (Termination × Nat))

/-- How a run of the program ended: its status, what it wrote and what it left behind. -/
structure Ending where
  status : Nat
  output : List String
  complaint : Option String
  archive : Option Export.Directory

namespace Ending

/-- It was asked for a text, and printed it. -/
def printed (text : String) : Ending := ⟨0, [text], none, none⟩

/-- It was called wrongly. -/
def refused (e : UsageError) : Ending := ⟨2, [], some e.message, none⟩

/-- The program could not go on. -/
def stuck (output : List String) (c : Complaint) : Ending := ⟨1, output, some c.text, none⟩

/-- The pipeline failed, as the lines printed before tell. -/
def failed (output : List String) : Ending := ⟨1, output, none, none⟩

/-- It was torn down when the channels were made. -/
def torn (output : List String) : Ending := ⟨101, output, some "channels too large", none⟩

def well (output : List String) (archive : Option Export.Directory) : Ending :=
  ⟨0, output, none, archive⟩

end Ending

/-- The settings of a file, or those that hold without one, for a new
owner. -/
def settingsFor {m : Type → Type} [Monad m] (host : Host m) :
    Option String → m (Except Settings.LoadError Settings)
  | some path => do return Settings.load (← host.settingsFile path)
  | none => do
    let owner ← host.newOwner
    let settings := { Settings.standard with recorder.owner := owner }
    return match settings.check with
      | [] => .ok settings
      | faults => .error (.invalid faults)

/-- Lets the metrics be read, if they are to be. -/
def showMetrics (net : Network) (s : Settings) : Except Complaint Journal :=
  if s.observability.metricsEnabled then
    match (Net.SocketAddress.parse? s.observability.metricsAddress).bind net.listen with
    | some e => .error (.listening e)
    | none => .ok (Journal.listening s.observability.metricsAddress)
  else .ok []

/-- The version of the schema that a database file has. -/
def fileVersion : DatabaseFile → Int
  | .holding db => db.currentVersion
  | _ => 0

/-- Opens the store and makes the targets known to it. -/
def openStore (s : Settings) (file : DatabaseFile) : Journal × Except Complaint Database :=
  match file.openAt s.store.path with
  | .error e => ([], .error (.store e))
  | .ok db =>
    let opened := Journal.opened s.store.path (fileVersion file)
    match db.upsert s.seeds with
    | (_, .error e) => (opened, .error (.store e))
    | (db, .ok count) => (opened ++ Journal.ready s.store.path count, .ok db)

/-- How long a claim takes, in milliseconds. -/
def claimSpan : Nat := 5

/-- After how many claims there is nothing more to claim. -/
def claimLimit : Nat := 1000

/-- When a pipeline that nobody asks to end is asked to, in milliseconds. -/
def patience : Nat := 600000

/-- The pipeline from its beginning to its end; nothing, if its channels
cannot be made. -/
def runPipeline (s : Settings) (net : Network) (db : Database) (now : Instant)
    (termination : Option (Termination × Nat)) : Option World :=
  let store := { ScriptedStore.ofBackend (.database db) claimSpan claimLimit none with
    epoch := now.seconds }
  pipelineRehearsal? s store (.ofNetwork net s.probe.verifyIdentity)
    (some ((termination.map (·.2)).getD patience))

/-- Exports the history of the targets into a directory. -/
def exportTo (s : Settings) (store : Backend) (today : Day) (dir : Export.Directory) :
    Export.Directory × Except Complaint Journal :=
  let (dir, result) := Export.exportHistory
    (fun target first last => store.range target s.recorder.owner first last) dir
    (s.targets.map (·.id)) today s.archive.days
  (dir, match result with
    | .error fault => .error (.archive fault)
    | .ok _ =>
      .ok (Journal.exported dir (Export.windowStart today s.archive.days) today))

/-- What is left to do after the pipeline. -/
def wrapUp {m : Type → Type} [Monad m] (host : Host m) (s : Settings) (filter : LogFilter)
    (before : Journal) (w : World) : m Ending := do
  match w.sys.supervisor.errors.error? with
  | some e => return .failed ((before ++ Journal.failed e).shown filter)
  | none =>
    match s.archive.path with
    | none => return .well ((before ++ Journal.closing).shown filter) none
    | some path =>
      let obstacle ← host.directoryObstacle path
      let now ← host.now
      let dir := { Export.Directory.vacant path with obstacle := obstacle }
      match exportTo s w.store.backend now.day dir with
      | (dir, .error c) =>
        return { Ending.stuck (before.shown filter) c with
          archive := if obstacle.isSome then none else some dir }
      | (dir, .ok lines) =>
        return .well ((before ++ lines ++ Journal.closing).shown filter) (some dir)

/-- The program with settings that were read: it shows metrics, opens the store, puts in the
targets, runs the pipeline and exports. -/
def runWith {m : Type → Type} [Monad m] (host : Host m) (choices : Choices) (s : Settings) :
    m Ending := do
  let filter := LogFilter.ofSetting (choices.logFilter.getD s.observability.logLevel)
  let opening := Journal.opening s
  match showMetrics host.network s with
  | .error c => return .stuck (opening.shown filter) c
  | .ok listening =>
    let file ← host.databaseFile s.store.path
    match openStore s file with
    | (lines, .error c) => return .stuck ((opening ++ listening ++ lines).shown filter) c
    | (lines, .ok db) =>
      let before := opening ++ listening ++ lines
      let now ← host.now
      let termination ← host.awaitTermination
      match runPipeline s host.network db now termination with
      | none => return .torn (before.shown filter)
      | some w =>
        wrapUp host s filter (before ++ Journal.pipeline s (termination.map (·.1)) w) w

/-- The program with its arguments. -/
def run {m : Type → Type} [Monad m] (host : Host m) (arguments : List String) : m Ending := do
  match Request.ofArguments arguments with
  | .error e => return .refused e
  | .ok .help => return .printed helpText
  | .ok .version => return .printed versionText
  | .ok (.run choices) =>
    match ← settingsFor host choices.settingsPath with
    | .error e => return .stuck [] (.settings e)
    | .ok s => runWith host choices s

end PeerWatch.CommandLine
