import PeerWatch.Net.SocketAddress
import PeerWatch.Settings.Basic

/-!
# Settings that make sense

Not every value of a setting can be used: sizes and spans have to be positive,
the owner has to be somebody, paths and addresses must not be blank, and no
target may be listed twice.  A check names every fault, those of single
settings in a fixed order, then those of the targets as they are listed.

* `check` — all faults;
* `Fault.text` — a fault in words.
-/

namespace PeerWatch.Settings

/-- What is wrong with a setting. -/
inductive Problem where
  | notPositive
  | noOwner
  | blank
  | notAnAddress (text : String)
  | duplicate (id : TargetId)
deriving DecidableEq

def Problem.message : Problem → String
  | .notPositive => "must be greater than 0"
  | .noOwner => "must be set to a non-nil UUID"
  | .blank => "must not be empty"
  | .notAnAddress text => "'" ++ text ++ "' is not a socket address"
  | .duplicate id => "duplicate target " ++ id.text

/-- A setting and what is wrong with it. -/
structure Fault where
  field : String
  problem : Problem
deriving DecidableEq

/-- A fault in a line: which field and what is wrong with it. -/
def Fault.text (f : Fault) : String := f.field ++ ": " ++ f.problem.message

/-- A fault if a number is not positive. -/
def checkPositive (field : String) (value : Nat) : List Fault :=
  if value = 0 then [⟨field, .notPositive⟩] else []

/-- A fault if a text is blank. -/
def checkNotBlank (field text : String) : List Fault :=
  if Text.isAllBlank text.toList then [⟨field, .blank⟩] else []

/-- The faults of all fields but the targets, in the order of the fields. -/
def checkScalars (s : Settings) : List Fault :=
  checkPositive "loader.batch_size" s.loader.batchSize
  ++ checkPositive "loader.idle_backoff_ms" s.loader.idleBackoff
  ++ checkPositive "probe.concurrency" s.probe.concurrency
  ++ checkPositive "probe.timeout_ms" s.probe.timeout
  ++ (if s.recorder.owner.isNil then [⟨"recorder.owner_id", .noOwner⟩] else [])
  ++ checkPositive "recorder.chunk_size" s.recorder.chunkSize
  ++ checkPositive "recorder.flush_interval_ms" s.recorder.flushInterval
  ++ checkPositive "channels.capacity" s.channels.capacity
  ++ checkNotBlank "store.path" s.store.path
  ++ checkPositive "observability.stats_interval_secs" s.observability.statsInterval
  ++ (if s.observability.metricsEnabled
        && (Net.SocketAddress.parse? s.observability.metricsAddress).isNone then
      [⟨"observability.metrics_address", .notAnAddress s.observability.metricsAddress⟩]
    else [])
  ++ (if s.archive.path.isSome then checkPositive "export.days" s.archive.days else [])

/-- A field of the target at an index. -/
def targetField (index : Nat) (field : String) : String :=
  "targets[" ++ toString index ++ "]." ++ field

/-- The faults of the targets from an index on, after those with the given
identities. -/
def checkTargets (index : Nat) (seen : List TargetId) : List TargetSettings → List Fault
  | [] => []
  | t :: rest =>
    checkNotBlank (targetField index "address") t.address
    ++ (if seen.contains t.id then [⟨targetField index "id", .duplicate t.id⟩] else [])
    ++ checkTargets (index + 1) (t.id :: seen) rest

/-- Every fault of the settings; they make sense if there is none. -/
def check (s : Settings) : List Fault :=
  s.checkScalars ++ checkTargets 0 [] s.targets

end PeerWatch.Settings
