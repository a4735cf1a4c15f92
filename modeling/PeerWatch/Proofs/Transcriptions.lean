import PeerWatch.Proofs.Histories
import PeerWatch.Proofs.TargetRows

/-!
# Transcriptions

What a ledger has in its typed tables a database has in raw ones: targets as
rows of numbers and texts, days as blobs of bytes.  This file follows the two
through the changes that claims, batches and new targets make.

* `Transcribes` — raw tables into which typed ones are written;
* `Transcribes.enterAll` — after a batch, with what is reported of it;
* `Transcribes.stampAll`, `Transcribes.put` — after a claim, and with a new target.
-/

namespace PeerWatch

open Calendar

/-- The tables of a ledger. -/
abbrev TypedSheets := Sheets TargetId Target HistoryKey DayHistory

/-- The rows of a database. -/
abbrev RawSheets := Sheets (List UInt8) TargetRow HistoryRowKey (List UInt8)

/-- Raw tables into which typed ones are written.  Every row tells its key, the
moments of the targets are whole, and the years of the days are plain. -/
structure Transcribes (raw : RawSheets) (typed : TypedSheets) : Prop where
  targets : Table.Mirrors TargetId.bytes TargetRow.encode raw.targets typed.targets
  history : Table.Mirrors HistoryRowKey.ofKey DayHistory.toBlob raw.history typed.history
  keyedTargets : typed.targets.Keyed Target.id
  keyedHistory : typed.history.Keyed DayHistory.key
  whole : ∀ id t, typed.targets.find? id = some t → t.IsWhole
  plain : ∀ key row, typed.history.find? key = some row → key.day.HasPlainYear

/-- A record that a database can keep, but for what is finer than a
millisecond. -/
def OutcomeRecord.Keepable (r : OutcomeRecord) : Prop :=
  r.outcome.capturedAt.isLeapSecond = false ∧ r.slot.key.day.HasPlainYear

/-- The record of an outcome as a database keeps it. -/
def OutcomeRecord.floorMillis (r : OutcomeRecord) : OutcomeRecord :=
  { r with outcome := r.outcome.floorMillis }

section Records

variable {raw : RawSheets} {typed : TypedSheets}

/-- A target in which an outcome is noted in whole milliseconds is whole. -/
theorem Target.IsWhole.recorded {t : Target} (h : t.IsWhole) {o : Outcome}
    (ho : o.capturedAt.isLeapSecond = false) : (t.recorded o.floorMillis).IsWhole := by
  unfold Target.recorded
  split
  · refine ⟨h.claimed, ?_⟩
    intro moment hmoment
    obtain rfl := Option.some.inj hmoment
    exact Instant.isWhole_floorMillis ho
  · exact ⟨h.claimed, h.success⟩

/-- **One record** keeps the transcription. -/
theorem Transcribes.enter (h : Transcribes raw typed) {r : OutcomeRecord} (hr : r.Keepable) :
    Transcribes (databaseHand.enter raw r) (ledgerHand.enter typed r.floorMillis) where
  targets := h.targets.modify (fun _ _ => TargetId.eq_of_bytes_eq) fun t _ =>
    TargetRow.encode_recorded t r.outcome
  history := mirrors_write h.history r.slot
  keyedTargets := by
    refine h.keyedTargets.modify fun t => ?_
    show (t.recorded r.outcome.floorMillis).id = t.id
    unfold Target.recorded
    split <;> rfl
  keyedHistory :=
    h.keyedHistory.insert (DayHistory.key_write fun row hrow => h.keyedHistory _ row hrow)
  whole id t hfound := by
    rw [Hand.enter, Table.find?_modify] at hfound
    split at hfound
    · obtain ⟨t', ht', rfl⟩ := Option.map_eq_some_iff.1 hfound
      exact (h.whole id t' ht').recorded hr.1
    · exact h.whole id t hfound
  plain key row hfound := by
    rw [Hand.enter, Table.find?_insert] at hfound
    split at hfound
    · next hkey =>
        rw [hkey]
        exact hr.2
    · exact h.plain key row hfound

/-- Of a record both stores report the same. -/
theorem Transcribes.tally (h : Transcribes raw typed) (r : OutcomeRecord) :
    databaseHand.tally raw r = ledgerHand.tally typed r.floorMillis := by
  have hknown : raw.targets.contains r.outcome.target.bytes =
      typed.targets.contains r.outcome.target := h.targets.contains _
  have hexisted : raw.history.contains (HistoryRowKey.ofKey r.slot.key) =
      typed.history.contains r.slot.key := h.history.contains _
  simp only [Hand.tally, databaseHand, ledgerHand, hknown, hexisted]
  rfl

/-- **A batch** keeps the transcription, and both stores report the same. -/
theorem Transcribes.enterAll (h : Transcribes raw typed) {rs : List OutcomeRecord}
    (hrs : ∀ r ∈ rs, r.Keepable) :
    Transcribes (databaseHand.enterAll rs raw).1
        (ledgerHand.enterAll (rs.map OutcomeRecord.floorMillis) typed).1 ∧
      (databaseHand.enterAll rs raw).2 =
        (ledgerHand.enterAll (rs.map OutcomeRecord.floorMillis) typed).2 := by
  induction rs generalizing raw typed with
  | nil => exact ⟨h, rfl⟩
  | cons r rest ih =>
      have henter := h.enter (hrs r List.mem_cons_self)
      obtain ⟨hrest, hreport⟩ := ih henter fun r hr => hrs r (List.mem_cons_of_mem _ hr)
      refine ⟨hrest, ?_⟩
      rw [List.map_cons, Hand.enterAll, Hand.enterAll, h.tally r, hreport]

end Records

section Targets

variable {raw : RawSheets} {typed : TypedSheets}

/-- A target with the moment of a claim noted. -/
def Target.claimedAt (t : Target) (moment : Option Instant) : Target :=
  { t with lastClaimedAt := moment }

/-- The raw row of a target with the moment of a claim noted. -/
def TargetRow.stamped (stamp : Int) (row : TargetRow) : TargetRow :=
  { row with lastClaimedAt := some stamp }

/-- Raw rows with the moment of a claim noted in those of some targets. -/
def stampRows (stamp : Int) (ts : List Target) (rows : Table (List UInt8) TargetRow) :
    Table (List UInt8) TargetRow :=
  ts.foldl (fun rows t => rows.modify t.id.bytes (TargetRow.stamped stamp)) rows

/-- Targets put in with the moment of a claim noted. -/
def putClaimed (now : Instant) (ts : List Target) (targets : Table TargetId Target) :
    Table TargetId Target :=
  ts.foldl (fun targets t => targets.insert t.id (t.claimedAt (some now))) targets

/-- A target that is there is put in again by changing its row in place. -/
theorem Table.insert_claimedAt {targets : Table TargetId Target} {t : Target}
    {moment : Option Instant} (hfound : targets.find? t.id = some (t.claimedAt moment))
    (now : Instant) :
    targets.insert t.id (t.claimedAt (some now)) =
      targets.modify t.id (·.claimedAt (some now)) := by
  refine Table.ext_find? fun id => ?_
  rw [Table.find?_insert, Table.find?_modify]
  split
  · next heq =>
      rw [heq, hfound]
      rfl
  · rfl

/-- Putting a claimed target into the ledger changes its row in place. -/
theorem Transcribes.stamp (h : Transcribes raw typed) {now : Instant} (hnow : now.IsWhole)
    {t : Target} {moment : Option Instant}
    (hfound : typed.targets.find? t.id = some (t.claimedAt moment)) :
    Transcribes ⟨raw.targets.modify t.id.bytes (TargetRow.stamped now.toMillis), raw.history⟩
      ⟨typed.targets.insert t.id (t.claimedAt (some now)), typed.history⟩ := by
  have hrow : ∀ t : Target, TargetRow.stamped now.toMillis (TargetRow.encode t) =
      TargetRow.encode (t.claimedAt (some now)) := fun _ => rfl
  rw [Table.insert_claimedAt hfound]
  exact
    { targets := h.targets.modify (fun _ _ => TargetId.eq_of_bytes_eq) fun t _ => hrow t
      history := h.history
      keyedTargets := h.keyedTargets.modify fun _ => rfl
      keyedHistory := h.keyedHistory
      whole := by
        intro id t' hfound'
        rw [Table.find?_modify] at hfound'
        split at hfound'
        · obtain ⟨t'', ht'', rfl⟩ := Option.map_eq_some_iff.1 hfound'
          refine ⟨?_, (h.whole id t'' ht'').success⟩
          intro moment hmoment
          obtain rfl := Option.some.inj hmoment
          exact hnow
        · exact h.whole id t' hfound'
      plain := h.plain }

/-- Putting claimed targets into the ledger changes their rows in place, one
after another. -/
theorem Transcribes.stampAll (h : Transcribes raw typed) {now : Instant} (hnow : now.IsWhole)
    {ts : List Target}
    (hfound : ∀ t ∈ ts, ∃ moment, typed.targets.find? t.id = some (t.claimedAt moment)) :
    Transcribes ⟨stampRows now.toMillis ts raw.targets, raw.history⟩
      ⟨putClaimed now ts typed.targets, typed.history⟩ := by
  induction ts generalizing raw typed with
  | nil => exact h
  | cons t rest ih =>
      obtain ⟨moment, ht⟩ := hfound t List.mem_cons_self
      refine ih (h.stamp hnow ht) ?_
      intro t' ht'
      obtain ⟨moment', hmoment'⟩ := hfound t' (List.mem_cons_of_mem _ ht')
      rw [Table.find?_insert]
      split
      · next heq =>
          -- of one identity there is one target, whenever it was claimed
          rw [heq, ht, Option.some.injEq] at hmoment'
          have hclaimed := congrArg (·.claimedAt (some now)) hmoment'
          exact ⟨some now, congrArg some hclaimed⟩
      · exact ⟨moment', hmoment'⟩

/-- A fresh target put in keeps the transcription. -/
theorem Transcribes.put (h : Transcribes raw typed) {t : Target} (ht : t.IsWhole) :
    Transcribes ⟨raw.targets.insert t.id.bytes (TargetRow.encode t), raw.history⟩
      ⟨typed.targets.insert t.id t, typed.history⟩ where
  targets := h.targets.insert (fun _ _ => TargetId.eq_of_bytes_eq) t.id t
  history := h.history
  keyedTargets := h.keyedTargets.insert rfl
  keyedHistory := h.keyedHistory
  whole id t' hfound := by
    rw [Table.find?_insert] at hfound
    split at hfound
    · obtain rfl := Option.some.inj hfound
      exact ht
    · exact h.whole id t' hfound
  plain := h.plain

end Targets

end PeerWatch
