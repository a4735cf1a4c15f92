import PeerWatch.Probe.Attempt
import PeerWatch.Hex

/-!
# The plain connection

A peer on a plain connection may greet with its identity, which is compared
with the one that is expected if identities are to be verified.  It is pinged
with a nonce and has to send the same bytes back.  Nothing takes time here:
the bytes are there, or they will never be.

* `readExactly` — some number of bytes from a stream;
* `WirePeer.peer` — how the calls go with a peer.
-/

namespace PeerWatch

/-- What a peer does on a plain connection. -/
structure WirePeer where
  greeting : List UInt8
  hangsUp : Bool
  /-- What it sends when it is pinged with a nonce, and whether it then hangs
  up. -/
  answer : List UInt8 → List UInt8 × Bool

/-- The bytes of a nonce. -/
def nonceLength : Nat := 8

/-- What comes of reading some number of bytes. -/
inductive ReadResult where
  | got (bytes rest : List UInt8)
  | ended
  /-- The bytes do not come. -/
  | stalled
deriving DecidableEq, Repr

/-- Reads so many bytes from a stream of which some are there, and which may
end with them. -/
def readExactly (count : Nat) (stream : List UInt8) (ends : Bool) : ReadResult :=
  if count ≤ stream.length then .got (stream.take count) (stream.drop count)
  else if ends then .ended
  else .stalled

/-- The peer went away in the middle of a message. -/
def earlyEnd : ConnectionError := .io ⟨.unexpectedEof, "early eof"⟩

/-- A call that fails at once. -/
def Call.failing (e : ConnectionError) : Call := ⟨some 0, .fails e⟩

/-- A call that never ends. -/
def Call.endless : Call := ⟨none, .returns⟩

namespace WirePeer

/-- The call that reads the greeting, and what is left of it. -/
def greet (p : WirePeer) (verify : Bool) (expected : TargetId) : Call × List UInt8 :=
  if !verify then (.prompt, p.greeting)
  else
    match readExactly TargetId.byteCount p.greeting p.hangsUp with
    | .got presented rest =>
      if presented = expected.bytes then (.prompt, rest)
      else
        (.failing (.identityMismatch expected (String.ofList (Hex.encode presented))), rest)
    | .ended => (.failing earlyEnd, [])
    | .stalled => (.endless, [])

/-- The call that pings, given what is left of the greeting. -/
def ping (p : WirePeer) (rest nonce : List UInt8) : Call :=
  let (reply, ends) := if p.hangsUp then ([], true) else p.answer nonce
  match readExactly nonceLength (rest ++ reply) ends with
  | .got echo _ =>
    if echo = nonce then .prompt else .failing (.protocol "ping echo does not match nonce")
  | .ended => .failing earlyEnd
  | .stalled => .endless

/-- How the calls go with a peer that is expected to have an identity. -/
def peer (p : WirePeer) (verify : Bool) (expected : TargetId) (nonce : List UInt8) : Peer :=
  let (dial, rest) := p.greet verify expected
  ⟨dial, p.ping rest nonce, .prompt⟩

end WirePeer

end PeerWatch
