import PeerWatch.Net.Destination
import PeerWatch.Probe.Wire
import PeerWatch.Target

/-!
# The network of a machine

A network says who answers at an address, and whether an address can be
listened at.  A machine that is cut off reaches nobody, not even itself; what
it is told depends on the kind of the address.

* `Network.peer` — how the calls go with a target;
* `Network.isolated`.
-/

namespace PeerWatch

open Net

/-- What a machine finds on its network. -/
structure Network where
  /-- Who answers at an address, or why nobody does. -/
  connect : SocketAddress → Except SystemError WirePeer
  /-- Why an address cannot be listened at, if it cannot. -/
  listen : SocketAddress → Option SystemError

/-- The kinds of version 6 addresses that are told apart. -/
inductive AddressKind where
  /-- It stands for a version 4 address. -/
  | mapped
  | multicast
  | linkLocal
  | unspecified
  | plain
deriving DecidableEq, Repr

/-- The kind of a version 6 address. -/
def AddressKind.ofGroups (groups : List Nat) : AddressKind :=
  let first := groups.headD 0
  if groups.take 6 = [0, 0, 0, 0, 0, 65535] then .mapped
  else if 0xFF00 ≤ first then .multicast
  else if first / 64 = 0xFE80 / 64 then .linkLocal
  else if groups.all (· = 0) then .unspecified
  else .plain

/-- What a machine that is cut off is told when it connects. -/
def isolatedConnect : SocketAddress → SystemError
  | .v4 _ _ => .networkUnreachable
  | .v6 groups scope _ =>
    match AddressKind.ofGroups groups with
    | .mapped | .multicast => .networkUnreachable
    | .linkLocal => if scope = 0 then .invalidArgument else .addressNotAvailable
    | .unspecified | .plain => .addressNotAvailable

/-- What a machine that is cut off is told when it wants to listen.  Any
version 4 address could be its own. -/
def isolatedListen : SocketAddress → Option SystemError
  | .v4 _ _ => none
  | .v6 groups scope _ =>
    match AddressKind.ofGroups groups with
    | .mapped | .unspecified => none
    | .multicast => some .invalidArgument
    | .linkLocal => some (if scope = 0 then .invalidArgument else .addressNotAvailable)
    | .plain => some .addressNotAvailable

namespace Network

/-- A network that nothing is connected to. -/
def isolated : Network := ⟨fun address => .error (isolatedConnect address), isolatedListen⟩

/-- The error of a destination without a socket address. -/
def resolveError (text : String) : ResolveError → ConnectionError
  | .malformed fault => .invalidAddress (text ++ ": " ++ fault.message)
  | .lookup failure => .io ⟨.uncategorized, failure.message⟩

/-- Dials a destination, given as a text. -/
def dial (net : Network) (text : String) : Except ConnectionError WirePeer :=
  match Destination.resolve text with
  | .error e => .error (resolveError text e)
  | .ok address => (net.connect address).mapError fun e => .io (.ofSystem e)

/-- How the calls go with a target. -/
def peer (net : Network) (verify : Bool) (nonce : List UInt8) (id : TargetId) (address : String) :
    Peer :=
  match net.dial address with
  | .error e => ⟨.failing e, .prompt, .prompt⟩
  | .ok p => p.peer verify id nonce

end Network

end PeerWatch
