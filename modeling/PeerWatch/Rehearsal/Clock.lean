/-!
# The clock of a rehearsal

In a rehearsal nothing takes time but waiting.  The actors that can act stand
in a queue; the first one acts until it has to wait, and those that become
able to act meanwhile join the queue at its end.  When all of them wait, the
clock jumps to the next alarm, and those whose alarms are due then act in the
order in which the alarms were set.

* `Clock.setAlarm`, `Clock.jump?`.
-/

namespace PeerWatch.Rehearsal

/-- The clock, for actors that are known by values of a type. -/
structure Clock (α : Type) where
  now : Nat
  ready : List α
  /-- When who is to act again, in the order in which this was set. -/
  alarms : List (Nat × α)

namespace Clock

variable {α : Type} [DecidableEq α]

/-- The clock at the beginning, when nobody has an alarm. -/
def start (ready : List α) : Clock α := ⟨0, ready, []⟩

/-- The clock without the alarm of an actor. -/
def clearAlarm (c : Clock α) (actor : α) : Clock α :=
  { c with alarms := c.alarms.filter (·.2 ≠ actor) }

/-- The clock with an alarm of an actor, in place of any it had. -/
def setAlarm (c : Clock α) (actor : α) (due : Nat) : Clock α :=
  let c := c.clearAlarm actor
  { c with alarms := c.alarms ++ [(due, actor)] }

/-- The clock after the first of those who are ready has acted. -/
def dismiss (c : Clock α) : Clock α := { c with ready := c.ready.tail }

/-- The clock with more actors at the end of those who are ready. -/
def enqueue (c : Clock α) (actors : List α) : Clock α := { c with ready := c.ready ++ actors }

/-- When the next alarm is due. -/
def nextDue? (c : Clock α) : Option Nat := (c.alarms.map (·.1)).min?

/-- The clock at the next alarm, which all whose alarms are due then have
heard. -/
def jump? (c : Clock α) : Option (Clock α) :=
  c.nextDue?.map fun due =>
    { now := max c.now due
      ready := c.ready ++ (c.alarms.filter (·.1 = due)).map (·.2)
      alarms := c.alarms.filter (·.1 ≠ due) }

end Clock

end PeerWatch.Rehearsal
