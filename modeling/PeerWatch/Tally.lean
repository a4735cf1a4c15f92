import PeerWatch.Channel
import PeerWatch.Target

/-!
# Tallies

How far the prober has come is counted where it happens and reported now and
then: a reporter keeps what it has not yet reported, offers it to the channel
of reports when it likes, and keeps it if the channel does not take it.  The
totals are the sum of the reports that came through.

* `Counters.observe` — counting an outcome;
* `offer` — a report that is taken or kept;
* `Totals.apply` — a report that came through.
-/

namespace PeerWatch

/-- Probes counted by how they ended. -/
structure Counters where
  probed : Nat
  succeeded : Nat
  failed : Nat
  /-- Of the failed ones, those of unknown class. -/
  unknown : Nat
deriving DecidableEq, Repr, Inhabited

namespace Counters

def zero : Counters := ⟨0, 0, 0, 0⟩

/-- One more probe, which succeeded or failed in a class. -/
def observe (c : Counters) : Option FailureClass → Counters
  | none => { c with probed := c.probed + 1, succeeded := c.succeeded + 1 }
  | some cls =>
    { c with probed := c.probed + 1, failed := c.failed + 1,
             unknown := c.unknown + (if cls = .unknown then 1 else 0) }

/-- One more outcome. -/
def observeOutcome (c : Counters) (o : Outcome) : Counters :=
  c.observe (o.failure.map (·.cls))

end Counters

/-- What a stage lets the collector know. -/
inductive Report where
  | claimed (targets : Nat)
  | probed (counters : Counters)
  | committed (outcomes batches : Nat)
deriving DecidableEq, Repr

/-- Whether there is nothing to report. -/
def Report.isNothing : Report → Bool
  | .claimed n => n = 0
  | .probed c => c = .zero
  | .committed outcomes batches => outcomes = 0 ∧ batches = 0

/-- Offers a report to a channel.  The answer is whether nothing is left to
report. -/
def offer (pending : Report) (reports : Channel Report) : Bool × Channel Report :=
  if pending.isNothing then (true, reports)
  else
    match reports.push? pending with
    | some reports => (true, reports)
    | none => (false, reports)

/-- The sums of all reports that came through. -/
structure Totals where
  claimed : Nat
  probed : Nat
  succeeded : Nat
  failed : Nat
  unknown : Nat
  recorded : Nat
  batches : Nat
deriving DecidableEq, Repr, Inhabited

namespace Totals

def zero : Totals := ⟨0, 0, 0, 0, 0, 0, 0⟩

/-- One more report. -/
def apply (t : Totals) : Report → Totals
  | .claimed n => { t with claimed := t.claimed + n }
  | .probed c =>
    { t with probed := t.probed + c.probed, succeeded := t.succeeded + c.succeeded,
             failed := t.failed + c.failed, unknown := t.unknown + c.unknown }
  | .committed outcomes batches =>
    { t with recorded := t.recorded + outcomes, batches := t.batches + batches }

/-- The greatest sum that can be kept: 64 bits. -/
def bound : Nat := 18446744073709551615

/-- No count is beyond the bound, so none was cut off. -/
def fits (t : Totals) : Bool :=
  [t.claimed, t.probed, t.succeeded, t.failed, t.unknown, t.recorded, t.batches].all (· ≤ bound)

/-- The totals after reports that came one after another. -/
def applyAll (t : Totals) (reports : List Report) : Totals := reports.foldl apply t

end Totals

end PeerWatch
