import PeerWatch.Proofs.Databases
import PeerWatch.Proofs.Ledgers

/-!
# Targets as raw rows

A target is written into a raw row with its moments in whole milliseconds, and
read from that row if its moments had nothing finer.  Rows and targets then
stand in the same order, so the queues of both stores are the same.

* `Instant.floorMillis`, `Instant.IsWhole` — what milliseconds keep;
* `Instant.compare_toMillis` — they keep the order;
* `TargetRow.encode`, `TargetRow.decode_encode` — writing and reading;
* `TargetTable.queue_of_mirrors` — the queues.
-/

namespace PeerWatch

open Calendar

namespace Calendar.Instant

/-- The moment without what is finer than a millisecond. -/
def floorMillis (t : Instant) : Instant where
  seconds := t.seconds
  nanos := t.nanos / 1000000 * 1000000
  inRange := t.inRange
  nanos_lt := by
    have := t.nanos_lt
    omega

/-- A moment of whole milliseconds, in no leap second. -/
def IsWhole (t : Instant) : Prop := t.nanos % 1000000 = 0 ∧ t.nanos < 1000000000

@[simp] theorem toMillis_floorMillis (t : Instant) : t.floorMillis.toMillis = t.toMillis := by
  simp only [toMillis, floorMillis, Nat.mul_div_cancel _ (by decide : 0 < 1000000)]

/-- Cut to its milliseconds, a moment is whole. -/
theorem isWhole_floorMillis {t : Instant} (h : t.isLeapSecond = false) : t.floorMillis.IsWhole := by
  simp only [isLeapSecond, decide_eq_false_iff_not, IsWhole, floorMillis] at *
  omega

/-- A whole moment has nothing to cut off. -/
theorem IsWhole.floorMillis_eq {t : Instant} (h : t.IsWhole) : t.floorMillis = t := by
  obtain ⟨seconds, nanos, _, _⟩ := t
  simp only [IsWhole] at h
  simp only [floorMillis, Instant.mk.injEq, true_and]
  omega

/-- Milliseconds tell a moment, but for what is finer and for leap seconds. -/
theorem ofMillis?_toMillis {t : Instant} (h : t.isLeapSecond = false) :
    ofMillis? t.toMillis = some t.floorMillis := by
  simp only [isLeapSecond, decide_eq_false_iff_not] at h
  have hseconds : t.toMillis / 1000 = t.seconds := by
    simp only [toMillis]
    omega
  have hnanos : (t.toMillis % 1000).toNat * 1000000 = t.nanos / 1000000 * 1000000 := by
    simp only [toMillis]
    omega
  unfold ofMillis?
  rw [dif_pos (by rw [hseconds]; exact t.inRange)]
  simp only [floorMillis, hseconds, hnanos]

/-- Whole moments are in the order of their milliseconds. -/
theorem compare_toMillis {a b : Instant} (ha : a.IsWhole) (hb : b.IsWhole) :
    compare a.toMillis b.toMillis = compare a b := by
  have hcompare : compare a b = (compare a.seconds b.seconds).then (compare a.nanos b.nanos) := rfl
  simp only [IsWhole] at ha hb
  rw [hcompare]
  rcases Int.lt_trichotomy a.seconds b.seconds with hlt | heq | hgt
  · have hmillis : a.toMillis < b.toMillis := by
      simp only [toMillis]
      omega
    rw [Int.compare_eq_lt.2 hlt, Int.compare_eq_lt.2 hmillis]
    rfl
  · rw [Int.compare_eq_eq.2 heq]
    show _ = compare a.nanos b.nanos
    -- in one second the milliseconds decide
    rcases Nat.lt_trichotomy a.nanos b.nanos with hlt | hsame | hgt
    · have hmillis : a.toMillis < b.toMillis := by
        simp only [toMillis]
        omega
      rw [Nat.compare_eq_lt.2 hlt, Int.compare_eq_lt.2 hmillis]
    · have hmillis : a.toMillis = b.toMillis := by
        simp only [toMillis]
        omega
      rw [Nat.compare_eq_eq.2 hsame, Int.compare_eq_eq.2 hmillis]
    · have hmillis : b.toMillis < a.toMillis := by
        simp only [toMillis]
        omega
      rw [Nat.compare_eq_gt.2 hgt, Int.compare_eq_gt.2 hmillis]
  · have hmillis : b.toMillis < a.toMillis := by
      simp only [toMillis]
      omega
    rw [Int.compare_eq_gt.2 hgt, Int.compare_eq_gt.2 hmillis]
    rfl

/-- Moments that may be missing are in the order of their milliseconds, too. -/
theorem compareClaims_toMillis {a b : Option Instant} (ha : ∀ t ∈ a, t.IsWhole)
    (hb : ∀ t ∈ b, t.IsWhole) :
    compareClaims (a.map toMillis) (b.map toMillis) = compareClaims a b := by
  cases a with
  | none => cases b <;> rfl
  | some a =>
      cases b with
      | none => rfl
      | some b => exact compare_toMillis (ha a rfl) (hb b rfl)

end Calendar.Instant

/-- The moments of the target are whole. -/
structure Target.IsWhole (t : Target) : Prop where
  claimed : ∀ moment ∈ t.lastClaimedAt, moment.IsWhole
  success : ∀ moment ∈ t.lastSuccessAt, moment.IsWhole

/-- An outcome as a database keeps it. -/
def Outcome.floorMillis (o : Outcome) : Outcome := { o with capturedAt := o.capturedAt.floorMillis }

namespace TargetRow

/-- The raw row of a target. -/
def encode (t : Target) : TargetRow where
  id := t.id.bytes
  address := t.address
  mode := t.mode.name
  lastClaimedAt := t.lastClaimedAt.map Instant.toMillis
  lastSuccessAt := t.lastSuccessAt.map Instant.toMillis
  lastLatency := t.lastLatency.map fun ms => (ms.toNat : Int)
  lastProbeOk := t.lastProbeOk.map fun ok => if ok then 1 else 0

/-- Every mode is found under its name. -/
theorem ofName?_name (mode : ProbeMode) : ProbeMode.ofName? mode.name = some mode := by
  cases mode <;> decide

/-- Every identity is read from its bytes. -/
theorem ofBytes?_bytes (id : TargetId) : TargetId.ofBytes? id.bytes = some id :=
  dif_pos id.length_eq

/-- A whole moment that may be missing is read from its milliseconds. -/
theorem decodeOptional_toMillis {moment? : Option Instant} (h : ∀ t ∈ moment?, t.IsWhole) :
    decodeOptional decodeMillis (moment?.map Instant.toMillis) = .ok moment? := by
  cases moment? with
  | none => rfl
  | some t =>
      have hwhole := h t rfl
      have hleap : t.isLeapSecond = false := decide_eq_false (Nat.not_le_of_lt hwhole.2)
      simp only [Option.map_some, decodeOptional, decodeMillis, Instant.ofMillis?_toMillis hleap,
        hwhole.floorMillis_eq]
      rfl

/-- A latency is read as it was stored. -/
theorem decodeOptional_latency (id : TargetId) (latency? : Option UInt32) :
    decodeOptional (decodeLatency id) (latency?.map fun ms => (ms.toNat : Int)) = .ok latency? := by
  cases latency? with
  | none => rfl
  | some ms =>
      have hms : ms.toNat < 4294967296 := ms.toNat_lt
      have hlatency : decodeLatency id (ms.toNat : Int) = .ok ms := by
        unfold decodeLatency
        rw [if_pos (by omega), Int.toNat_natCast, UInt32.ofNat_toNat]
      simp only [Option.map_some, decodeOptional, hlatency]
      rfl

/-- **A target is read from its row,** if its moments are whole. -/
theorem decode_encode {t : Target} (h : t.IsWhole) : (encode t).decode = .ok t := by
  have hok : (t.lastProbeOk.map fun ok => if ok then (1 : Int) else 0).map
      (fun v => decide (v ≠ 0)) = t.lastProbeOk := by
    cases t.lastProbeOk with
    | none => rfl
    | some ok => cases ok <;> rfl
  simp only [decode, encode, ofBytes?_bytes, ofName?_name, decodeOptional_toMillis h.claimed,
    decodeOptional_toMillis h.success, decodeOptional_latency, bind, Except.bind, hok]
  rfl

/-- Rows of whole targets are decoded into the targets. -/
theorem decodeRows_map {ts : List Target} (h : ∀ t ∈ ts, t.IsWhole) :
    decodeRows (ts.map encode) = .ok ts := by
  induction ts with
  | nil => rfl
  | cons t rest ih =>
      have hrest := ih fun t ht => h t (List.mem_cons_of_mem _ ht)
      simp only [List.map_cons, decodeRows, decode_encode (h t List.mem_cons_self), hrest]
      rfl

/-- An outcome is noted in the row as in the target, in whole milliseconds. -/
theorem encode_recorded (t : Target) (o : Outcome) :
    (encode t).recorded o = encode (t.recorded o.floorMillis) := by
  unfold recorded Target.recorded
  have hsuccess : o.floorMillis.isSuccess = o.isSuccess := rfl
  rw [hsuccess]
  cases o.isSuccess with
  | true => simp [encode, Outcome.floorMillis]
  | false => rfl

/-- Rows and targets are claimed in the same order. -/
theorem staleRow_encode {a b : Target} (ha : a.IsWhole) (hb : b.IsWhole) :
    staleRow (encode a) (encode b) = staleBefore a b := by
  have hids : compare a.id.bytes b.id.bytes = compare a.id b.id := rfl
  simp only [staleRow, staleBefore, encode,
    Instant.compareClaims_toMillis ha.claimed hb.claimed, hids]

end TargetRow

/-- **The queues of both stores** are the same, if the rows mirror targets whose
moments are whole. -/
theorem TargetTable.queue_of_mirrors {table : TargetTable} {l : Ledger}
    (h : Table.Mirrors TargetId.bytes TargetRow.encode table.rows l.targets)
    (hwhole : ∀ t ∈ l.targets.values, t.IsWhole) : table.queue = l.queue.map TargetRow.encode := by
  have hvalues : table.rows.values = l.targets.values.map TargetRow.encode := by
    unfold Table.values
    rw [h.entries_eq fun _ _ => rfl, List.map_map, List.map_map]
    rfl
  have henabled : ∀ t : Target, decide ((TargetRow.encode t).mode ≠ ProbeMode.off.name) =
      t.isEnabled := by
    intro t
    show decide (t.mode.name ≠ ProbeMode.off.name) = decide (t.mode ≠ .off)
    cases t.mode <;> decide
  unfold TargetTable.queue Ledger.queue
  rw [hvalues, List.filter_map, List.map_mergeSort]
  · congr 2
    exact List.filter_congr fun t _ => henabled t
  · intro a ha b hb
    exact (TargetRow.staleRow_encode (hwhole a (List.mem_filter.1 ha).1)
      (hwhole b (List.mem_filter.1 hb).1)).symm

end PeerWatch
