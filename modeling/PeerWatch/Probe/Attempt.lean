import PeerWatch.Deadline
import PeerWatch.Probe.Failure

/-!
# One attempt at a target

A probe opens a connection, sends a message there and back if the target is
to be pinged, and closes the connection again.  Opening and pinging share one
budget; closing has a short grace of its own, and its result does not matter.
The time of a success is that of opening and pinging.  The time of a failure is
taken when all is over, so that it counts closing too.

The peer is known by how its side of each call goes: after how long, and in
what end.

* `attempt` — the attempt: its end, its result, and which calls were begun.
-/

namespace PeerWatch

/-- How a call ends, if it is not cut off. -/
inductive CallEnd where
  | returns
  | fails (e : ConnectionError)
  /-- The caller is torn down with it. -/
  | aborts
deriving DecidableEq

/-- How one call of a peer goes. -/
structure Call where
  /-- How long it takes, in milliseconds; `none` if it never ends. -/
  span : Option Nat
  ending : CallEnd
deriving DecidableEq

/-- A call that returns at once. -/
def Call.prompt : Call := ⟨some 0, .returns⟩

/-- How the calls of one connection go. -/
structure Peer where
  dial : Call
  ping : Call
  close : Call
deriving DecidableEq

/-- A peer all of whose calls return at once. -/
def Peer.prompt : Peer := ⟨.prompt, .prompt, .prompt⟩

instance : Inhabited Peer := ⟨.prompt⟩

/-- How many calls of each kind were begun. -/
structure CallCounts where
  dials : Nat
  pings : Nat
  closes : Nat
deriving DecidableEq, Repr, Inhabited

namespace CallCounts

/-- No call was begun. -/
def zero : CallCounts := ⟨0, 0, 0⟩

/-- The calls of two attempts together. -/
def add (a b : CallCounts) : CallCounts :=
  ⟨a.dials + b.dials, a.pings + b.pings, a.closes + b.closes⟩

end CallCounts

/-- What becomes of an attempt. -/
inductive AttemptResult where
  | succeeded
  | failed (e : ProbeError)
  /-- A call tore the caller down. -/
  | aborted
deriving DecidableEq

/-- An attempt that is over; it began at moment 0. -/
structure Attempt where
  /-- The moments at which its calls were over, in order. -/
  callEnds : List Nat
  result : AttemptResult
  calls : CallCounts
deriving DecidableEq

/-- How long an attempt took, closing included. -/
def Attempt.span (a : Attempt) : Nat := a.callEnds.getLastD 0

/-- How long an attempt took without closing the connection. -/
def Attempt.latency (a : Attempt) : Nat :=
  (a.callEnds.take (a.calls.dials + a.calls.pings)).getLastD 0

/-- How long an attempt took, as its outcome has it: a failure is told when all
is over, closing included. -/
def Attempt.elapsed (a : Attempt) : Nat :=
  match a.result with
  | .succeeded => a.latency
  | .failed _ | .aborted => a.span

/-- The grace a connection has to close, in milliseconds. -/
def closeGrace : Nat := 250

/-- Closes the connection of an attempt whose calls are over and that has its
result. -/
def closeAfter (peer : Peer) (callEnds : List Nat) (result : AttemptResult) (calls : CallCounts) :
    Attempt :=
  let now := callEnds.getLastD 0
  let calls := { calls with closes := calls.closes + 1 }
  match runUntil (now + closeGrace) now peer.close.span peer.close.ending with
  | .done time .aborts => ⟨callEnds ++ [time], .aborted, calls⟩
  | .done time _ => ⟨callEnds ++ [time], result, calls⟩
  | .elapsed time => ⟨callEnds ++ [time], result, calls⟩

/-- The attempt after a connection was opened at `now`. -/
def pingAndClose (mode : ProbeMode) (limit : Nat) (peer : Peer) (budget : Budget) (now : Nat) :
    Attempt :=
  let calls : CallCounts := ⟨1, 0, 0⟩
  if mode = .ping then
    let calls := { calls with pings := 1 }
    match budget.run now peer.ping.span peer.ping.ending with
    | .elapsed time => closeAfter peer [now, time] (.failed (.deadline .ping (limit * 1000))) calls
    | .done time .returns => closeAfter peer [now, time] .succeeded calls
    | .done time (.fails e) => closeAfter peer [now, time] (.failed (.connection .ping e)) calls
    | .done time .aborts => ⟨[now, time], .aborted, calls⟩
  else closeAfter peer [now] .succeeded calls

/-- One attempt at a target with the given mode, under a limit. -/
def attempt (mode : ProbeMode) (limit : Nat) (peer : Peer) : Attempt :=
  if mode = .off then ⟨[], .failed .disabled, .zero⟩
  else
    let budget := Budget.start 0 limit
    let calls : CallCounts := ⟨1, 0, 0⟩
    match budget.run 0 peer.dial.span peer.dial.ending with
    | .elapsed time => ⟨[time], .failed (.deadline .dial (limit * 1000)), calls⟩
    | .done time (.fails e) => ⟨[time], .failed (.connection .dial e), calls⟩
    | .done time .aborts => ⟨[time], .aborted, calls⟩
    | .done time .returns => pingAndClose mode limit peer budget time

/-- The failure of a result, if it is one. -/
def AttemptResult.failure? : AttemptResult → Option Failure
  | .failed e => some e.toFailure
  | _ => none

end PeerWatch
