import PeerWatch.History.Day

/-!
# Slot writes

Where an outcome goes in the history and what it writes there: the row of its
target, its owner and the day it was observed on, the minute of that day, and
the value of the slot.
-/

namespace PeerWatch

/-- One slot to be written. -/
structure SlotWrite where
  key : HistoryKey
  minute : Nat
  value : UInt16
deriving DecidableEq

/-- The write that an outcome calls for. -/
def SlotWrite.ofOutcome (owner : OwnerId) (o : Outcome) : SlotWrite where
  key := ⟨o.target, owner, o.capturedAt.day⟩
  minute := o.capturedAt.minuteOfDay
  value :=
    if o.isSuccess then Slot.ofLatency o.capturedAt o.latency else Slot.ofFailure o.capturedAt

/-- An outcome together with the slot it goes to. -/
structure OutcomeRecord where
  outcome : Outcome
  slot : SlotWrite
deriving DecidableEq

/-- The record an owner makes of an outcome. -/
def OutcomeRecord.ofOutcome (owner : OwnerId) (o : Outcome) : OutcomeRecord :=
  ⟨o, SlotWrite.ofOutcome owner o⟩

end PeerWatch
