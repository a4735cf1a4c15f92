import PeerWatch.Store.Basic
import PeerWatch.Table

/-!
# Raw rows

What the tables of a database hold: byte strings for identities and slots,
text for modes, owners and days, integers for moments and latencies.  Nothing
keeps other hands from writing values that make no sense, so every row is
decoded when it is read, and the first value that cannot be decoded is
reported.

* `TargetRow`, `HistoryRowKey`, `TargetTable`, `HistoryTable` — what is stored;
* `TargetRow.decode`, `decodeBlob` — what it tells.
-/

namespace PeerWatch

open Calendar

/-- A raw row of the table of targets. -/
structure TargetRow where
  id : List UInt8
  address : String
  mode : String
  lastClaimedAt : Option Int
  lastSuccessAt : Option Int
  lastLatency : Option Int
  lastProbeOk : Option Int
deriving DecidableEq

/-- The key of a raw row of the table of histories. -/
structure HistoryRowKey where
  target : List UInt8
  owner : String
  day : String
deriving DecidableEq

namespace HistoryRowKey

instance : Ord HistoryRowKey :=
  ⟨compareLex (compareOn (·.target)) (compareLex (compareOn (·.owner)) (compareOn (·.day)))⟩

instance : Std.TransOrd HistoryRowKey :=
  inferInstanceAs (Std.TransCmp (compareLex (compareOn fun k : HistoryRowKey => k.target)
    (compareLex (compareOn fun k : HistoryRowKey => k.owner)
      (compareOn fun k : HistoryRowKey => k.day))))

instance : Std.LawfulEqOrd HistoryRowKey where
  compare_self := Std.ReflCmp.compare_self
  eq_of_compare := by
    intro a b h
    obtain ⟨ta, oa, da⟩ := a
    obtain ⟨tb, ob, db⟩ := b
    have h : (compare ta tb).then ((compare oa ob).then (compare da db)) = .eq := h
    obtain ⟨h₁, h⟩ := Ordering.then_eq_eq.1 h
    obtain ⟨h₂, h₃⟩ := Ordering.then_eq_eq.1 h
    have h₁ : ta = tb := Std.LawfulEqOrd.eq_of_compare h₁
    have h₂ : oa = ob := Std.LawfulEqOrd.eq_of_compare h₂
    have h₃ : da = db := Std.LawfulEqOrd.eq_of_compare h₃
    subst h₁ h₂ h₃
    rfl

/-- The raw key of a history row. -/
def ofKey (key : HistoryKey) : HistoryRowKey :=
  ⟨key.target.bytes, key.owner.text, key.day.text⟩

end HistoryRowKey

/-- A kind of statement that a rule can refuse for one target. -/
inductive GuardedWrite where
  /-- Writes whether the last probe succeeded. -/
  | outcome
  /-- Writes when the target was claimed. -/
  | claim
  /-- Inserts the target, or would insert it if it were not there. -/
  | insertion
deriving DecidableEq, Repr

/-- The table of targets, and the writes to it that are refused. -/
structure TargetTable where
  rows : Table (List UInt8) TargetRow
  refusals : List (GuardedWrite × List UInt8)

/-- Whether a write to a target is refused. -/
def TargetTable.refuses (t : TargetTable) (write : GuardedWrite) (id : List UInt8) : Bool :=
  t.refusals.contains (write, id)

/-- The table of histories, and the targets whose rows it refuses to write. -/
structure HistoryTable where
  rows : Table HistoryRowKey (List UInt8)
  refusals : List (List UInt8)

/-- Whether a write to a row of a target is refused. -/
def HistoryTable.refuses (t : HistoryTable) (target : List UInt8) : Bool :=
  t.refusals.contains target

/-- The moment a stored number of milliseconds tells. -/
def decodeMillis (ms : Int) : Except StoreError Instant :=
  match Instant.ofMillis? ms with
  | some t => .ok t
  | none => .error (.corrupt (.timestamp ms))

/-- A column that may be empty, read by its decoder where it is not. -/
def decodeOptional {α : Type} (decode : Int → Except StoreError α) :
    Option Int → Except StoreError (Option α)
  | none => .ok none
  | some v => (decode v).map some

/-- The latency of a column, which has to fit 32 bits. -/
def decodeLatency (target : TargetId) (ms : Int) : Except StoreError UInt32 :=
  if 0 ≤ ms ∧ ms < 4294967296 then .ok (UInt32.ofNat ms.toNat)
  else .error (.corrupt (.latency target ms))

/-- The target a raw row tells of; its columns are looked at from left to
right. -/
def TargetRow.decode (row : TargetRow) : Except StoreError Target :=
  match TargetId.ofBytes? row.id with
  | none => .error (.corrupt (.idLength row.id.length))
  | some id =>
    match ProbeMode.ofName? row.mode with
    | none => .error (.corrupt (.unknownMode id row.mode))
    | some mode => do
      let claimed ← decodeOptional decodeMillis row.lastClaimedAt
      let success ← decodeOptional decodeMillis row.lastSuccessAt
      let latency ← decodeOptional (decodeLatency id) row.lastLatency
      pure ⟨id, row.address, mode, claimed, success, latency, row.lastProbeOk.map (· ≠ 0)⟩

/-- The rows decoded one after another, up to the first that cannot be. -/
def decodeRows : List TargetRow → Except StoreError (List Target)
  | [] => .ok []
  | row :: rest =>
    match row.decode with
    | .error e => .error e
    | .ok t => (decodeRows rest).map (t :: ·)

/-- The history a stored byte string tells. -/
def decodeBlob (key : HistoryKey) (blob : List UInt8) : Except StoreError DayHistory :=
  match DayHistory.ofBlob? key blob with
  | some row => .ok row
  | none => .error (.corrupt (.blobLength key blob.length))

/-- Never claimed first, then the earlier claim, then by identity. -/
def staleRow (a b : TargetRow) : Bool :=
  ((compareClaims a.lastClaimedAt b.lastClaimedAt).then (compare a.id b.id)).isLE

/-- The rows that may be claimed, in the order in which they are. -/
def TargetTable.queue (table : TargetTable) : List TargetRow :=
  (table.rows.values.filter (·.mode ≠ ProbeMode.off.name)).mergeSort staleRow

/-- The row of a target after an outcome. -/
def TargetRow.recorded (row : TargetRow) (o : Outcome) : TargetRow :=
  if o.isSuccess then
    { row with lastProbeOk := some 1, lastSuccessAt := some o.capturedAt.toMillis,
               lastLatency := some o.latency.toNat }
  else { row with lastProbeOk := some 0 }

/-- The row of a target that was just put in. -/
def TargetRow.ofTarget (t : Target) : TargetRow :=
  ⟨t.id.bytes, t.address, t.mode.name, none, none, none, none⟩

end PeerWatch
