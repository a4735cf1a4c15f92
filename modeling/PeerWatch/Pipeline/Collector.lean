import PeerWatch.Tally

/-!
# The collector

The collector adds up the reports that come through, until there will be no
more.  It also sums up in the log from time to time; without a time between
two summaries it does not begin.

* `Collector.step` — what an event makes of a collector.
-/

namespace PeerWatch

/-- What a collector is about. -/
inductive CollectorPhase where
  /-- It has not begun. -/
  | beginning
  | collecting
  | ended
  /-- It could not begin. -/
  | tornDown
deriving DecidableEq, Repr

/-- What adds up the reports. -/
structure Collector where
  interval : Nat
  phase : CollectorPhase
  totals : Totals
deriving DecidableEq

inductive CollectorEvent where
  | begun
  | took (r : Report)
  | finished
  | tornDown
deriving DecidableEq

namespace Collector

/-- A collector that has not begun. -/
def fresh (interval : Nat) : Collector := ⟨interval, .beginning, .zero⟩

/-- The collector after an event; nothing, if the event cannot happen to it. -/
def step (c : Collector) (e : CollectorEvent) : Option Collector :=
  match e, c.phase with
  | .begun, .beginning => if 0 < c.interval then some { c with phase := .collecting } else none
  | .tornDown, .beginning => if 0 < c.interval then none else some { c with phase := .tornDown }
  | .took r, .collecting => some { c with totals := c.totals.apply r }
  | .finished, .collecting => some { c with phase := .ended }
  | _, _ => none

/-- Whether the collector is gone, and its end of the channel with it. -/
def isGone (c : Collector) : Bool := c.phase = .ended ∨ c.phase = .tornDown

end Collector

end PeerWatch
