import PeerWatch.Owner
import PeerWatch.Target

/-!
# Settings

Everything about the prober that can be chosen, in sections.  Each setting
has a value that holds where none is given; only the owner of the history has
to be named, and a target needs an identity and an address.

Spans of time are whole milliseconds unless said otherwise.
-/

namespace PeerWatch

/-- How targets are claimed. -/
structure LoaderSettings where
  batchSize : Nat := 16
  /-- The rest after a claim that gave nothing. -/
  idleBackoff : Nat := 10000
deriving DecidableEq, Repr, Inhabited

/-- How targets are probed. -/
structure ProbeSettings where
  concurrency : Nat := 16
  timeout : Nat := 5000
  /-- Whether a peer has to show its identity first. -/
  verifyIdentity : Bool := true
deriving DecidableEq, Repr, Inhabited

/-- How outcomes are recorded. -/
structure RecorderSettings where
  owner : OwnerId := .nil
  chunkSize : Nat := 16
  /-- How long a batch that is not full may wait. -/
  flushInterval : Nat := 5000
deriving DecidableEq, Inhabited

/-- How much may be under way between the stages. -/
structure ChannelSettings where
  capacity : Nat := 16
deriving DecidableEq, Repr, Inhabited

/-- Where targets and histories are kept. -/
structure StoreSettings where
  path : String := "peer-prober.db"
deriving DecidableEq, Repr, Inhabited

/-- How the prober shows what it does. -/
structure ObservabilitySettings where
  logLevel : String := "info"
  metricsEnabled : Bool := false
  metricsAddress : String := "0.0.0.0:9090"
  /-- Between two summaries, in seconds. -/
  statsInterval : Nat := 60
deriving DecidableEq, Repr, Inhabited

/-- What is exported at the end. -/
structure ExportSettings where
  /-- The directory; nothing is exported without one. -/
  path : Option String := none
  /-- How many days, up to the present one. -/
  days : Nat := 7
deriving DecidableEq, Repr, Inhabited

/-- A target that is to be known from the start. -/
structure TargetSettings where
  id : TargetId
  address : String
  mode : ProbeMode
deriving DecidableEq, Inhabited

/-- The target of its settings, never claimed and never probed. -/
def TargetSettings.toTarget (t : TargetSettings) : Target := .fresh t.id t.address t.mode

/-- All settings of the program, each with its default. -/
structure Settings where
  loader : LoaderSettings := {}
  probe : ProbeSettings := {}
  recorder : RecorderSettings := {}
  channels : ChannelSettings := {}
  store : StoreSettings := {}
  observability : ObservabilitySettings := {}
  archive : ExportSettings := {}
  targets : List TargetSettings := []
deriving DecidableEq, Inhabited

namespace Settings

/-- The settings of a program for which nothing was set. -/
def standard : Settings := {}

/-- Between two summaries, in milliseconds. -/
def statsIntervalMillis (s : Settings) : Nat := s.observability.statsInterval * 1000

/-- The targets that are to be known from the start. -/
def seeds (s : Settings) : List Target := s.targets.map (·.toTarget)

end Settings

end PeerWatch
