import PeerWatch.Identity
import PeerWatch.Calendar.Instant

/-!
# Targets and the outcomes of probing them

A target is a peer with an address and a way it is to be probed; beside that
it carries when it was last claimed for probing and how the last probes went.
A probe of a target ends in one outcome: a success with its latency, or a
failure of a class, with a message.
-/

namespace PeerWatch

open Calendar

/-- How a target is probed. -/
inductive ProbeMode where
  /-- Never. -/
  | off
  | dial
  /-- By opening a connection and sending a message there and back. -/
  | ping
deriving DecidableEq, Repr, Inhabited

namespace ProbeMode

/-- The mode of a target that names none. -/
def standard : ProbeMode := .ping

/-- The name of a mode, as settings and rows write it. -/
def name : ProbeMode → String
  | .off => "off"
  | .dial => "dial"
  | .ping => "ping"

/-- The mode of a name. -/
def ofName? (name : String) : Option ProbeMode :=
  [ProbeMode.off, .dial, .ping].find? (·.name = name)

end ProbeMode

/-- What kind of failure a probe met. -/
inductive FailureClass where
  /-- The network failed, perhaps only for now. -/
  | transientNetwork
  /-- Something answered, but not the peer or not its protocol. -/
  | protocolMismatch
  | fatal
  | unknown
deriving DecidableEq, Repr, Inhabited

namespace FailureClass

/-- The name of a class, as the journal and the metrics write it. -/
def name : FailureClass → String
  | .transientNetwork => "transient-network"
  | .protocolMismatch => "protocol-mismatch"
  | .fatal => "fatal"
  | .unknown => "unknown"

/-- The class of a name. -/
def ofName? (name : String) : Option FailureClass :=
  [FailureClass.transientNetwork, .protocolMismatch, .fatal, .unknown].find? (·.name = name)

end FailureClass

/-- A peer that is probed, and what is known of it. -/
structure Target where
  id : TargetId
  address : String
  mode : ProbeMode
  /-- When it was last claimed for probing. -/
  lastClaimedAt : Option Instant
  /-- When the last recorded success was observed. -/
  lastSuccessAt : Option Instant
  /-- The latency of that success, in milliseconds. -/
  lastLatency : Option UInt32
  /-- Whether the last recorded probe succeeded. -/
  lastProbeOk : Option Bool
deriving DecidableEq, Inhabited

/-- A target of which nothing is known yet. -/
def Target.fresh (id : TargetId) (address : String) (mode : ProbeMode) : Target :=
  ⟨id, address, mode, none, none, none, none⟩

/-- Whether a target is ever probed. -/
def Target.isEnabled (t : Target) : Bool := t.mode ≠ .off

/-- Why a probe did not succeed. -/
structure Failure where
  cls : FailureClass
  message : String
deriving DecidableEq, Repr

/-- How one probe of a target ended. -/
structure Outcome where
  target : TargetId
  capturedAt : Instant
  /-- In milliseconds. -/
  latency : UInt32
  /-- `none` for a success. -/
  failure : Option Failure
deriving DecidableEq

/-- Whether the probe succeeded. -/
def Outcome.isSuccess (o : Outcome) : Bool := o.failure.isNone

end PeerWatch
