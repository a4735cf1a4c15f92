import PeerWatch.Decimal.Shortest
import PeerWatch.Target

/-!
# Metrics

What the prober does is counted under fixed names, which others may read as
lines of text.  A name appears once it was touched, be it by nothing.
Counters have 64 bits and begin again after the last number; of a
distribution, count and sum are kept.

* `note` — an event is counted;
* `lines` — the lines, in order.
-/

namespace PeerWatch

/-- A count and a sum. -/
structure Distribution where
  count : Nat
  sum : Float

def Distribution.zero : Distribution := ⟨0, 0⟩

/-- One more value. -/
def Distribution.add (d : Distribution) (value : Float) : Distribution :=
  ⟨d.count + 1, d.sum + value⟩

/-- What the pipeline lets the metrics know. -/
inductive MetricEvent where
  | claimed (targets : Nat)
  | probed (outcome : Outcome)
  /-- A batch of outcomes was committed, in so many milliseconds. -/
  | committed (outcomes millis : Nat)
  | batchFailed
  /-- The pipeline has come to a state, shown as a number. -/
  | entered (code : UInt8)
deriving DecidableEq

/-- Everything that is counted; `none` for what was never touched. -/
structure Metrics where
  claimed : Option UInt64
  succeeded : Option UInt64
  failed : List (FailureClass × UInt64)
  latency : Option Distribution
  batches : Option UInt64
  batchFailures : Option UInt64
  recorded : Option UInt64
  /-- In seconds. -/
  commitTime : Option Distribution
  state : Option UInt8

namespace Metrics

/-- Metrics of which none was touched; those do not appear in the text. -/
def fresh : Metrics := ⟨none, none, [], none, none, none, none, none, none⟩

/-- A counter after an increase. -/
def increase (counter : Option UInt64) (by_ : Nat) : Option UInt64 :=
  some (counter.getD 0 + UInt64.ofNat by_)

/-- A distribution after one more value. -/
def observe (d : Option Distribution) (value : Float) : Option Distribution :=
  some ((d.getD .zero).add value)

/-- The counter of a class after one more failure. -/
def countFailure (cls : FailureClass) : List (FailureClass × UInt64) → List (FailureClass × UInt64)
  | [] => [(cls, 1)]
  | (c, n) :: rest => if c = cls then (c, n + 1) :: rest else (c, n) :: countFailure cls rest

/-- Milliseconds as seconds: whole seconds and the fraction are added. -/
def seconds (millis : Nat) : Float :=
  Float.ofNat (millis / 1000) + Float.ofNat (millis % 1000 * 1000000) / 1000000000.0

/-- The metrics after an event. -/
def note (m : Metrics) : MetricEvent → Metrics
  | .claimed n => { m with claimed := increase m.claimed n }
  | .probed o =>
    match o.failure with
    | none =>
      { m with succeeded := increase m.succeeded 1,
               latency := observe m.latency (Float.ofNat o.latency.toNat) }
    | some f => { m with failed := countFailure f.cls m.failed }
  | .committed n millis =>
    { m with batches := increase m.batches 1, recorded := increase m.recorded n,
             commitTime := observe m.commitTime (seconds millis) }
  | .batchFailed => { m with batchFailures := increase m.batchFailures 1 }
  | .entered code => { m with state := some code }

def counterLine (name : String) (counter : Option UInt64) : List String :=
  (counter.map fun n => name ++ " " ++ toString n.toNat).toList

/-- The name of the outcomes with some result and class. -/
def outcomesName (result cls : String) : String :=
  "prober_outcomes_total\x7bresult=\"" ++ result ++ "\",class=\"" ++ cls ++ "\"\x7d"

def distributionLines (name : String) (d : Option Distribution) : List String :=
  match d with
  | none => []
  | some d =>
    [name ++ "_count " ++ toString d.count, name ++ "_sum " ++ Decimal.floatText d.sum]

/-- All lines, in ascending order. -/
def lines (m : Metrics) : List String :=
  (counterLine "prober_targets_claimed_total" m.claimed
   ++ counterLine (outcomesName "ok" "none") m.succeeded
   ++ m.failed.flatMap (fun (cls, n) => counterLine (outcomesName "failed" cls.name) (some n))
   ++ distributionLines "prober_probe_latency_ms" m.latency
   ++ counterLine "prober_batches_committed_total" m.batches
   ++ counterLine "prober_batch_failures_total" m.batchFailures
   ++ counterLine "prober_outcomes_recorded_total" m.recorded
   ++ distributionLines "prober_batch_commit_seconds" m.commitTime
   ++ (m.state.map fun code => "prober_pipeline_state " ++ toString code.toNat).toList).mergeSort
    fun a b => a ≤ b

end Metrics

end PeerWatch
