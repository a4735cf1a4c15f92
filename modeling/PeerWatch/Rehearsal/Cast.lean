import PeerWatch.Probe.Network

/-!
# Peers that play a part

In a rehearsal the peer at an address behaves as written down: for the first
connection, the second one, and so on, the last part being played again and
again.  A peer without a part does all at once and well.  In place of parts
there may be a network, on which peers behave as they do there.

* `Cast.enter` — the part for the next connection to a target.
-/

namespace PeerWatch.Rehearsal

/-- The parts of the peers. -/
structure Cast where
  /-- For a target and its address, the parts for one connection after
  another. -/
  partsFor : TargetId → String → List Peer
  /-- Connections so far, an address for each. -/
  connected : List String

namespace Cast

/-- Parts written down for addresses, before any connection. -/
def ofParts (parts : List (String × List Peer)) : Cast where
  partsFor _ address := ((parts.find? (·.1 = address)).map (·.2)).getD []
  connected := []

/-- The nonce that is sent to a peer, the same in every rehearsal. -/
def nonce : List UInt8 := (List.range nonceLength).map UInt8.ofNat

/-- The peers of a network, before any connection. -/
def ofNetwork (net : Network) (verify : Bool) : Cast where
  partsFor id address := [net.peer verify nonce id address]
  connected := []

/-- The part for the next connection to a target. -/
def enter (c : Cast) (t : Target) : Peer × Cast :=
  let parts := c.partsFor t.id t.address
  let n := c.connected.count t.address
  (((parts[n]?).or parts.getLast?).getD .prompt,
    { c with connected := t.address :: c.connected })

end Cast

end PeerWatch.Rehearsal
