import PeerWatch.Proofs.BatchReports
import PeerWatch.Proofs.SharedFiles

/-!
# Batches that are replayed

A recorder that does not hear whether a batch was taken may send it again.  Within
the batch later records overwrite earlier ones, so a replay goes back to what the
earlier ones had written, and comes to the same end: what stands in a row after some
records depends on the last of them, and a second pass has the same last ones.

* `Hand.enterAll_enterAll` — a second pass changes nothing;
* `Backend.record_again` — a batch that was taken is taken again;
* `Backend.Claimed` — claims in between;
* `Backend.replays_are_harmless`;
* `SharedFile.replay_fails_after_torn_claim` — a claim that there can be no room for.
-/

namespace PeerWatch

open Calendar

section Passes

/-- Outcomes that are noted a second time add nothing. -/
theorem Target.after_after (os : List Outcome) (t : Target) :
    (t.after os).after os = t.after os := by
  unfold after
  simp only [← Option.or_assoc, Option.or_self]

/-- The same outcomes once more change nothing in a row. -/
theorem TargetRow.after_after (os : List Outcome) (row : TargetRow) :
    (row.after os).after os = row.after os := by
  unfold after
  simp only [← Option.or_assoc, Option.or_self]

/-- Rows with one key that hold the same in every minute are one row. -/
theorem DayHistory.ext_get {a b : DayHistory} (hkey : a.key = b.key)
    (h : ∀ m < minutesPerDay, a.get m = b.get m) : a = b := by
  obtain ⟨key, slots⟩ := a
  obtain ⟨key', slots'⟩ := b
  obtain rfl : key = key' := hkey
  have hslots : slots = slots' := by
    refine Vector.ext fun m hm => ?_
    have hm' := h m hm
    simpa [get, hm] using hm'
  rw [hslots]

/-- Writes leave the key of the row of a day. -/
theorem key_writeAll (rs : List OutcomeRecord) {row row' : DayHistory}
    (h : ledgerHand.writeAll rs (some row) = some row') : row'.key = row.key := by
  induction rs generalizing row with
  | nil => rw [Option.some.inj h]
  | cons r rest ih =>
      have hrest : ledgerHand.writeAll rest (some (row.set r.slot.minute r.slot.value)) =
          some row' := h
      have hkey := ih hrest
      exact hkey

/-- Writes that are made a second time add nothing: each minute holds the last of them
already. -/
theorem ledgerHand_writeAll_again (rs : List OutcomeRecord) (row? : Option DayHistory) :
    ledgerHand.writeAll rs (ledgerHand.writeAll rs row?) = ledgerHand.writeAll rs row? := by
  cases rs with
  | nil => rfl
  | cons r rest =>
      have hsome := (isSome_writeAll (r :: rest) row?).2 (.inr (List.cons_ne_nil r rest))
      obtain ⟨row, hrow⟩ := Option.isSome_iff_exists.1 hsome
      have hsome' := (isSome_writeAll (r :: rest) (some row)).2 (.inl rfl)
      obtain ⟨row', hrow'⟩ := Option.isSome_iff_exists.1 hsome'
      have hget : ∀ m < minutesPerDay,
          DayHistory.slotOf (some row') m = DayHistory.slotOf (some row) m := by
        intro m hm
        have hfirst := slotOf_writeAll (r :: rest) row? hm
        have hsecond := slotOf_writeAll (r :: rest) (some row) hm
        rw [hrow] at hfirst
        rw [hrow'] at hsecond
        rw [hsecond]
        cases hlast : ((r :: rest).filter (·.slot.minute = m)).getLast? with
        | none => rfl
        | some x =>
            rw [hlast] at hfirst
            exact hfirst.symm
      rw [hrow, hrow', DayHistory.ext_get (key_writeAll _ hrow') hget]

/-- Raw days are written as the days of which they are the bytes. -/
theorem databaseHand_writeAll (rs : List OutcomeRecord) (row? : Option DayHistory) :
    databaseHand.writeAll rs (row?.map DayHistory.toBlob) =
      (ledgerHand.writeAll rs row?).map DayHistory.toBlob := by
  induction rs generalizing row? with
  | nil => rfl
  | cons r rest ih =>
      have hstep : databaseHand.writeAll (r :: rest) (row?.map DayHistory.toBlob) =
          databaseHand.writeAll rest
            (some (databaseHand.write r.slot (row?.map DayHistory.toBlob))) := rfl
      rw [hstep, databaseHand_write]
      exact ih (some (DayHistory.write r.slot row?))

/-- Raw writes that are made a second time add nothing, even to a row that could not be
read. -/
theorem databaseHand_writeAll_again (rs : List OutcomeRecord) (blob? : Option (List UInt8)) :
    databaseHand.writeAll rs (databaseHand.writeAll rs blob?) = databaseHand.writeAll rs blob? := by
  cases rs with
  | nil => rfl
  | cons r rest =>
      -- the first write leaves the bytes of a day, whatever stood there
      let row? := ledgerHand.writeAll (r :: rest) (blob?.bind (DayHistory.ofBlob? r.slot.key))
      have hfirst : databaseHand.writeAll (r :: rest) blob? = row?.map DayHistory.toBlob :=
        databaseHand_writeAll rest
          (some (DayHistory.write r.slot (blob?.bind (DayHistory.ofBlob? r.slot.key))))
      rw [hfirst, databaseHand_writeAll, ledgerHand_writeAll_again]

end Passes

namespace Hand

variable {τ ρ κ δ : Type} [Ord τ] [Std.TransOrd τ] [Std.LawfulEqOrd τ] [DecidableEq τ]
  [Ord κ] [Std.TransOrd κ] [Std.LawfulEqOrd κ] [DecidableEq κ] (h : Hand τ ρ κ δ)

/-- **A second pass changes nothing,** if it changes no single row. -/
theorem enterAll_enterAll (hnote : ∀ rs row, h.noteAll rs (h.noteAll rs row) = h.noteAll rs row)
    (hwrite : ∀ rs day?, h.writeAll rs (h.writeAll rs day?) = h.writeAll rs day?)
    (rs : List OutcomeRecord) (s : Sheets τ ρ κ δ) :
    (h.enterAll rs (h.enterAll rs s).1).1 = (h.enterAll rs s).1 := by
  have htargets : (h.enterAll rs (h.enterAll rs s).1).1.targets = (h.enterAll rs s).1.targets := by
    refine Table.ext_find? fun k => ?_
    rw [find?_targets_enterAll, find?_targets_enterAll, Option.map_map]
    exact congrArg (Option.map · (s.targets.find? k)) (funext fun row => hnote _ row)
  have hhistory : (h.enterAll rs (h.enterAll rs s).1).1.history = (h.enterAll rs s).1.history := by
    refine Table.ext_find? fun k => ?_
    rw [find?_history_enterAll, find?_history_enterAll]
    exact hwrite _ _
  exact congrArg₂ Sheets.mk htargets hhistory

end Hand

/-- A batch entered once more changes nothing in memory. -/
theorem ledgerHand_enterAll_again (rs : List OutcomeRecord)
    (s : Sheets TargetId Target HistoryKey DayHistory) :
    (ledgerHand.enterAll rs (ledgerHand.enterAll rs s).1).1 = (ledgerHand.enterAll rs s).1 := by
  refine ledgerHand.enterAll_enterAll (fun rs t => ?_) ledgerHand_writeAll_again rs s
  simp only [ledgerHand_noteAll, Target.after_after]

/-- A batch entered once more changes nothing in the tables. -/
theorem databaseHand_enterAll_again (rs : List OutcomeRecord) (s : RawSheets) :
    (databaseHand.enterAll rs (databaseHand.enterAll rs s).1).1 =
      (databaseHand.enterAll rs s).1 := by
  refine databaseHand.enterAll_enterAll (fun rs row => ?_) databaseHand_writeAll_again rs s
  simp only [databaseHand_noteAll, TargetRow.after_after]

namespace Database

variable {db : Database}

/-- What stops a record stops it before and after others are entered. -/
theorem obstacle?_enterAll (htables : db.HasTables) {rs : List OutcomeRecord}
    (h : ∀ r ∈ rs, db.obstacle? r = none) :
    (db.withSheets (databaseHand.enterAll rs db.sheets).1).obstacle? = db.obstacle? := by
  induction rs generalizing db with
  | nil => exact congrArg obstacle? db.withSheets_sheets
  | cons r rest ih =>
      obtain ⟨hr, hrest⟩ := List.forall_mem_cons.1 h
      have hsame := obstacle?_enter htables hr
      have hall := ih (htables.withSheets _) (hsame ▸ hrest)
      rw [htables.sheets_withSheets, withSheets_withSheets, hsame] at hall
      exact hall

end Database

namespace Backend

variable {b b' c : Backend} {rs : List OutcomeRecord} {report : BatchReport}

/-- **A batch that was taken is taken again,** and changes nothing. -/
theorem record_again (h : b.record rs = (b', .ok report)) :
    ∃ again, b'.record rs = (b', .ok again) := by
  cases b with
  | ledger l =>
      rw [record_ledger, Prod.mk.injEq] at h
      obtain ⟨rfl, hreport⟩ := h
      have hrecord : l.record rs = ((l.record rs).1, .ok report) := Prod.ext rfl hreport
      have hsheets : (ledgerHand.enterAll rs (l.entered rs).sheets).1 = (l.entered rs).sheets :=
        ledgerHand_enterAll_again rs l.sheets
      have hsame : (l.entered rs).entered rs = l.entered rs := by
        rw [Ledger.entered, hsheets]
        rfl
      rw [(Ledger.record_of_ok hrecord).1, record_ledger, Ledger.record_of_no_fault rfl, hsame]
      exact ⟨_, rfl⟩
  | database db =>
      rw [record_database, Prod.mk.injEq] at h
      obtain ⟨rfl, hreport⟩ := h
      have hrecord : db.record rs = ((db.record rs).1, .ok report) := Prod.ext rfl hreport
      obtain ⟨haccepts, -, hleft⟩ := Database.record_ok_iff.1 hrecord
      let left := db.withSheets (databaseHand.enterAll rs db.sheets).1
      have hsheets : left.sheets = (databaseHand.enterAll rs db.sheets).1 :=
        Database.sheets_entered haccepts.hasTables
      have hsame : left.withSheets (databaseHand.enterAll rs left.sheets).1 = left := by
        rw [hsheets, databaseHand_enterAll_again, ← hsheets, Database.withSheets_sheets]
      have haccepts' : Database.AcceptsAll rs left := by
        rcases haccepts.hasTables with rfl | htables
        · trivial
        · have hfree := (Database.acceptsAll_iff htables).1 haccepts
          rw [Database.acceptsAll_iff (htables.withSheets _),
            Database.obstacle?_enterAll htables hfree]
          exact hfree
      rw [hleft, record_database, Database.record_ok_iff.2 ⟨haccepts', rfl, hsame.symm⟩]
      exact ⟨_, rfl⟩

/-- Stores that batches cannot tell apart take the same batches. -/
theorem SameProbes.record_ok (h : b.SameProbes c) (hb : b.record rs = (b', .ok report)) :
    ∃ c' again, c.record rs = (c', .ok again) := by
  cases h with
  | @ledger l l' h =>
      rw [record_ledger, Prod.mk.injEq] at hb
      rcases Ledger.record_cases l.faultyRow rs with hdone | ⟨e, hfailed⟩
      · rw [record_ledger, hdone l' h.faultyRow.symm]
        exact ⟨_, _, rfl⟩
      · rw [hfailed l rfl] at hb
        cases hb.2
  | @database db db' h =>
      rw [record_database, Prod.mk.injEq] at hb
      have hrecord : db.record rs = ((db.record rs).1, .ok report) := Prod.ext rfl hb.2
      have haccepts := h.acceptsAll (Database.record_ok_iff.1 hrecord).1
      rw [record_database, Database.record_ok_iff.2 ⟨haccepts, rfl, rfl⟩]
      exact ⟨_, _, rfl⟩

/-- Stores with the same tables have as many rows of days. -/
theorem SameTables.dayCount (h : b.SameTables c) : b.dayCount = c.dayCount := by
  cases h with
  | ledger _ hhistory => exact congrArg Table.size hhistory
  | database _ hhistory =>
      let count (days : Option HistoryTable) : Nat := ((days.map HistoryTable.rows).getD ∅).size
      exact congrArg count hhistory

/-- Stores that claims, or batches, cannot tell apart have rows for the same targets. -/
theorem SameClaims.hasTarget (h : b.SameClaims c) (id : TargetId) :
    b.hasTarget id = c.hasTarget id := by
  cases h with
  | ledger h => exact h.targets.contains id
  | database h => exact h.rows.contains id.bytes

/-- Where the probes are the same, the same targets are there. -/
theorem SameProbes.hasTarget (h : b.SameProbes c) (id : TargetId) :
    b.hasTarget id = c.hasTarget id := by
  cases h with
  | ledger h => exact h.targets.contains id
  | database h => exact h.rows.contains id.bytes

section Claims

/-- What some claims make of a store, whatever they are answered.  None of them is for
more targets than there can be room for. -/
inductive Claimed (start : Backend) : Backend → Prop
  | nil : Claimed start start
  | claim {b : Backend} (h : Claimed start b) {limit : Nat} (hroom : b.claimTears limit = false)
      (now : Instant) : Claimed start (b.claim limit now).1

/-- Targets that claims, or batches, cannot tell apart tell the same keys. -/
theorem SameClaims.isKeyed (h : b.SameClaims c) (hc : c.IsKeyed) : b.IsKeyed := by
  cases h with
  | ledger h =>
      refine h.targets.keyed (fun t t' heq => ?_) hc
      have hid : t.unprobed.id = t'.unprobed.id := congrArg Target.id heq
      exact hid
  | database h => trivial

/-- Where the probes are the same, rows stand under their keys in both or in neither. -/
theorem SameProbes.isKeyed (h : b.SameProbes c) (hc : c.IsKeyed) : b.IsKeyed := by
  cases h with
  | ledger h =>
      refine h.targets.keyed (fun t t' heq => ?_) hc
      have hid : t.unclaimed.id = t'.unclaimed.id := congrArg Target.id heq
      exact hid
  | database h => trivial

/-- **Batches do not see claims,** however many there are. -/
theorem Claimed.sameProbes (hb : b.IsKeyed) (h : b.Claimed c) : c.SameProbes b := by
  induction h with
  | nil => exact .refl b
  | claim _ _ now ih => exact (sameProbes_claim_of_keyed (ih.isKeyed hb) _ now).trans ih

end Claims

/-- **Replays are harmless.**  Take a batch that a store took, whatever its records are and
however often they name a target or a minute, and any claims after it.  The store takes
the batch again, and has the tables that it had before: its histories and what is known
of probes are as they were after the first time.  What is reported of the replay is as
many targets as the first time, every record as an update, and no new row. -/
theorem replays_are_harmless (hb : b.IsKeyed) (h : b.record rs = (b', .ok report))
    (hclaimed : b'.Claimed c) :
    ∃ c', c.record rs = (c', .ok ⟨report.targetsUpdated, rs.length, 0⟩) ∧ c'.SameTables c ∧
      c.SameProbes b' := by
  have hseen : b'.SameClaims b := by
    have hseen := b.sameClaims_record rs
    rwa [h] at hseen
  have hprobes : c.SameProbes b' := hclaimed.sameProbes (hseen.isKeyed hb)
  obtain ⟨again, hagain⟩ := record_again h
  obtain ⟨c', replayed, hreplay⟩ := hprobes.symm.record_ok hagain
  have hsame : c'.SameTables c := by
    have hclaims := c.sameClaims_record rs
    have hbatch := hprobes.record rs
    rw [hreplay] at hclaims hbatch
    rw [hagain] at hbatch
    exact hclaims.sameTables (hbatch.trans hprobes.symm)
  obtain ⟨hall, -, hgrown, hupdated⟩ := (Entered.of_record hreplay).report
  have hreport : replayed = ⟨report.targetsUpdated, rs.length, 0⟩ := by
    have hnone : replayed.rowsInserted = 0 := by
      have hcount := hsame.dayCount
      omega
    refine BatchReport.ext_counts ?_ ?_ hnone
    · rw [hupdated, (Entered.of_record h).report.2.2.2]
      refine List.countP_congr fun r _ => ?_
      rw [hprobes.hasTarget, hseen.hasTarget]
    · rw [hnone] at hall
      exact hall
  exact ⟨c', hreport ▸ hreplay, hsame, hprobes⟩

/-- A success and a failure of one target are recorded for one minute, and an outcome of
a target that is not known; the target is claimed, and then the batch comes again. -/
theorem replays_are_harmless_claim_between :
    ∃ (b b' c c' : Backend) (rs : List OutcomeRecord),
      rs.map (fun r => (b.hasTarget r.outcome.target, r.outcome.isSuccess, r.slot.minute)) =
        [(true, true, 0), (true, false, 0), (false, true, 0)] ∧
      b.record rs = (b', .ok ⟨2, 1, 2⟩) ∧ b'.Claimed c ∧ (b'.claim 1 default).1 = c ∧
      c.record rs = (c', .ok ⟨2, 3, 0⟩) ∧ c'.SameTables c ∧ c.SameProbes b' := by
  let row : TargetRow := .ofTarget (.fresh default "peer:1" .ping)
  let db : Database := ⟨some ⟨(∅ : Table _ _).insert row.id row, []⟩, some ⟨∅, []⟩, [1]⟩
  let other : TargetId := ⟨List.replicate 32 1, rfl⟩
  let rs : List OutcomeRecord := recordsOf .nil
    [⟨default, default, 7, none⟩, ⟨default, default, 0, some ⟨.fatal, "late"⟩⟩,
      ⟨other, default, 8, none⟩]
  have haccepts : Database.AcceptsAll rs db :=
    (Database.acceptsAll_iff ⟨rfl, rfl⟩).2 (by decide +kernel)
  have hreport : (databaseHand.enterAll rs db.sheets).2 = ⟨2, 1, 2⟩ := by decide +kernel
  let b' : Backend := .database (db.withSheets (databaseHand.enterAll rs db.sheets).1)
  have hrecord : (Backend.database db).record rs = (b', .ok ⟨2, 1, 2⟩) := by
    rw [record_database, Database.record_ok_iff.2 ⟨haccepts, hreport.symm, rfl⟩]
  have hclaimed : b'.Claimed (b'.claim 1 default).1 := .claim .nil rfl default
  have hkeyed : (Backend.database db).IsKeyed := trivial
  obtain ⟨c', hreplay, hsame, hprobes⟩ := replays_are_harmless hkeyed hrecord hclaimed
  exact ⟨_, _, _, c', rs, by decide +kernel, hrecord, hclaimed, rfl, hreplay, hsame, hprobes⟩

end Backend

/-- **A replay may fail after a claim that there is no room for.**  A batch is taken, a
claim for more targets than there can be room for tears its caller down, and the session,
which is left inside the transaction of the claim, does not take the batch again. -/
theorem SharedFile.replay_fails_after_torn_claim :
    ∃ (rs : List OutcomeRecord) (limit : Nat) (es : List FileEvent) (s : SharedFile)
      (log : List (FileEvent × FileReply)),
      es = [.opening none, .calling 0 .free (.upsert [.fresh default "peer:1" .ping]),
        .calling 0 .free (.store (.record rs)),
        .calling 0 .free (.store (.claim limit default)),
        .calling 0 .free (.store (.record rs))] ∧
      Run (SharedFile.step "peers.db") (.new, []) es (s, log) ∧
      log.map (·.2) = [.opened, .answered (.ok (.upserted 1)),
        .answered (.ok (.recorded ⟨1, 0, 1⟩)), .tornDown,
        .answered (.error (.unavailable .withinTransaction))] := by
  let rs : List OutcomeRecord := [.ofOutcome .nil ⟨default, default, 7, none⟩]
  let es : List FileEvent :=
    [.opening none, .calling 0 .free (.upsert [.fresh default "peer:1" .ping]),
      .calling 0 .free (.store (.record rs)),
      .calling 0 .free (.store (.claim (Database.claimBound + 1) default)),
      .calling 0 .free (.store (.record rs))]
  have hrun : (es.foldlM (SharedFile.step "peers.db") (.new, [])).any fun now =>
      now.2.map (·.2) = [.opened, .answered (.ok (.upserted 1)),
        .answered (.ok (.recorded ⟨1, 0, 1⟩)), .tornDown,
        .answered (.error (.unavailable .withinTransaction))] := by
    decide +kernel
  obtain ⟨⟨s, log⟩, h, hlog⟩ := Run.exists_of_any hrun
  exact ⟨rs, _, es, s, log, rfl, h, of_decide_eq_true hlog⟩

end PeerWatch
