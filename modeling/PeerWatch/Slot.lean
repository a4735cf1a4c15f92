import PeerWatch.Calendar.Instant

/-!
# Slots

What one minute of a day shows of a target is packed into one 16-bit value:
a hint at when in the minute the probe was made (quarter minutes of four
seconds, 0 to 14), and a bucket.  Bucket 1 is a failure, a bucket from 2 to
1999 the latency in milliseconds, and the value 0 means that nothing was
recorded.

* `Slot.encode`, `Slot.read` — packing and unpacking;
* `Slot.ofLatency`, `Slot.ofFailure` — the value of an observed probe.
-/

namespace PeerWatch.Slot

open Calendar

/-- The values that share a hint. -/
def bucketSpan : Nat := 2000

/-- The bucket of a probe that failed. -/
def failedBucket : Nat := 1

/-- The bucket of the longest latencies. -/
def lastBucket : Nat := 1999

/-- The greatest hint that a value can hold. -/
def lastHint : Nat := 14

/-- What a slot shows. -/
inductive Reading where
  /-- Nothing was recorded in that minute. -/
  | noData
  /-- The last probe of the minute failed. -/
  | failed (hint : Nat)
  /-- The last probe of the minute succeeded. -/
  | latency (hint : Nat) (ms : Nat)
deriving DecidableEq, Repr

/-- The bucket of a latency: the milliseconds, at least 2 and at most 1999. -/
def latencyBucket (ms : UInt32) : Nat := min (max ms.toNat 2) lastBucket

/-- The span of four seconds in its minute in which a probe was made. -/
def hintOf (t : Instant) : Nat := min (t.secondOfMinute / 4) lastHint

/-- The value of a hint and a bucket. -/
def encode (hint bucket : Nat) : UInt16 :=
  (min hint lastHint * bucketSpan + min (max bucket 1) lastBucket).toUInt16

/-- The value of a probe that succeeded. -/
def ofLatency (t : Instant) (ms : UInt32) : UInt16 := encode (hintOf t) (latencyBucket ms)

/-- The value of a probe that failed. -/
def ofFailure (t : Instant) : UInt16 := encode (hintOf t) failedBucket

/-- What a value says; values out of range and those with an empty bucket say nothing. -/
def read (value : UInt16) : Reading :=
  let v := value.toNat
  if v = 0 ∨ (lastHint + 1) * bucketSpan ≤ v then .noData
  else if v % bucketSpan = 0 then .noData
  else if v % bucketSpan = failedBucket then .failed (v / bucketSpan)
  else .latency (v / bucketSpan) (v % bucketSpan)

end PeerWatch.Slot
