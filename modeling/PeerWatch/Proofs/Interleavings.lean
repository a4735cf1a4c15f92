import PeerWatch.Proofs.Claims
import PeerWatch.Proofs.Schedules

/-!
# Claims beside batches

Claims write when targets were handed out, batches write what was found out
about them, and neither asks what the other writes.  So it does not matter in
which order the claims of a loader and the batches of a recorder come to the
store, although a ledger lays down whole copies of its rows.

* `Backend.SameClaims`, `Backend.SameProbes` — stores that claims, or batches,
  cannot tell apart;
* `Backend.sameClaims_record`, `Backend.sameProbes_claim` — what one kind of
  call leaves to the other;
* `Backend.SameClaims.serve`, `Backend.SameProbes.serve` — runs of calls, and
  the calls of one kind among them;
* `Backend.interleavings_agree` — the order between the kinds does not matter.
-/

namespace PeerWatch

open Calendar

/-- The target without the moment of its last claim. -/
def Target.unclaimed (t : Target) : Target := t.claimedAt none

/-- The row without the moment of the last claim. -/
def TargetRow.unclaimed (row : TargetRow) : TargetRow := { row with lastClaimedAt := none }

section Outcomes

theorem Target.unprobed_recorded (o : Outcome) (t : Target) :
    (t.recorded o).unprobed = t.unprobed := by
  unfold recorded
  split <;> rfl

theorem TargetRow.unprobed_recorded (o : Outcome) (row : TargetRow) :
    (row.recorded o).unprobed = row.unprobed := by
  unfold recorded
  split <;> rfl

/-- An outcome is noted alike in targets that differ in their last claim. -/
theorem Target.unclaimed_recorded (o : Outcome) (t t' : Target) (h : t.unclaimed = t'.unclaimed) :
    (t.recorded o).unclaimed = (t'.recorded o).unclaimed := by
  have hcomm : ∀ t : Target, (t.recorded o).unclaimed = t.unclaimed.recorded o := by
    intro t
    unfold recorded
    split <;> rfl
  rw [hcomm, hcomm, h]

/-- An outcome is noted alike in rows that differ in the last claim. -/
theorem TargetRow.unclaimed_recorded (o : Outcome) (row row' : TargetRow)
    (h : row.unclaimed = row'.unclaimed) :
    (row.recorded o).unclaimed = (row'.recorded o).unclaimed := by
  have hcomm : ∀ row : TargetRow, (row.recorded o).unclaimed = row.unclaimed.recorded o := by
    intro row
    unfold recorded
    split <;> rfl
  rw [hcomm, hcomm, h]

/-- Targets are known by what claims and what batches see of them. -/
theorem Target.eq_of_unprobed_of_unclaimed (t t' : Target) (h : t.unprobed = t'.unprobed)
    (h' : t.unclaimed = t'.unclaimed) : t = t' := by
  cases t
  cases t'
  simp_all [unprobed, unclaimed, claimedAt]

/-- Rows are known by what claims and what batches see of them. -/
theorem TargetRow.eq_of_unprobed_of_unclaimed (row row' : TargetRow)
    (h : row.unprobed = row'.unprobed) (h' : row.unclaimed = row'.unclaimed) : row = row' := by
  cases row
  cases row'
  simp_all [unprobed, unclaimed]

end Outcomes

namespace Ledger

/-- Ledgers that claims cannot tell apart. -/
structure SameClaims (l l' : Ledger) : Prop where
  targets : Table.AgreeOn Target.unprobed l.targets l'.targets
  faultyClaim : l.faultyClaim = l'.faultyClaim

/-- Ledgers that batches cannot tell apart. -/
structure SameProbes (l l' : Ledger) : Prop where
  targets : Table.AgreeOn Target.unclaimed l.targets l'.targets
  history : l.history = l'.history
  faultyRow : l.faultyRow = l'.faultyRow

variable {l l' : Ledger}

/-- A claim does the same with ledgers that claims cannot tell apart. -/
theorem SameClaims.claim (h : l.SameClaims l') (hl : l.targets.Keyed Target.id)
    (hl' : l'.targets.Keyed Target.id) (limit : Nat) (now : Instant) :
    (l.claim limit now).1.SameClaims (l'.claim limit now).1 ∧
      (l.claim limit now).2.map (List.map Target.unprobed) =
        (l'.claim limit now).2.map (List.map Target.unprobed) := by
  cases hfault : l.faultyClaim with
  | true =>
      have hfault' : l'.faultyClaim = true := h.faultyClaim ▸ hfault
      unfold Ledger.claim
      rw [if_pos hfault, if_pos hfault']
      exact ⟨⟨h.targets, rfl⟩, rfl⟩
  | false =>
      have hfault' : l'.faultyClaim = false := h.faultyClaim ▸ hfault
      have hqueue : (l.queue.take limit).map Target.unprobed =
          (l'.queue.take limit).map Target.unprobed := by
        rw [List.map_take, List.map_take]
        exact congrArg (List.take limit) (ledgerRoster.map_queue_of_agreeOn h.targets)
      have hstamp : ∀ ts : List Target, (ts.map (·.claimedAt (some now))).map Target.unprobed =
          (ts.map Target.unprobed).map (·.claimedAt (some now)) := by
        intro ts
        rw [List.map_map, List.map_map]
        rfl
      rw [claim_eq hl hfault, claim_eq hl' hfault']
      refine ⟨⟨ledgerRoster.claim_agreeOn h.targets limit now, h.faultyClaim⟩, ?_⟩
      simp only [Except.map, hstamp, hqueue]

/-- Claims do not see a batch. -/
theorem sameClaims_record (l : Ledger) (rs : List OutcomeRecord) : (l.record rs).1.SameClaims l := by
  rcases record_cases l.faultyRow rs with hdone | ⟨e, hfailed⟩
  · rw [hdone l rfl]
    exact ⟨ledgerHand.targets_enterAll_unseen Target.unprobed_recorded rs l.sheets, rfl⟩
  · rw [hfailed l rfl]
    exact ⟨.refl _ _, rfl⟩

/-- A batch does the same with ledgers that batches cannot tell apart. -/
theorem SameProbes.record (h : l.SameProbes l') (rs : List OutcomeRecord) :
    (l.record rs).1.SameProbes (l'.record rs).1 := by
  rcases record_cases l.faultyRow rs with hdone | ⟨e, hfailed⟩
  · rw [hdone l rfl, hdone l' h.faultyRow.symm]
    exact ⟨ledgerHand.targets_enterAll_congr Target.unclaimed_recorded rs h.targets,
      ledgerHand.history_enterAll_congr rs h.history, rfl⟩
  · rw [hfailed l rfl, hfailed l' h.faultyRow.symm]
    exact ⟨h.targets, h.history, rfl⟩

/-- Batches do not see a claim. -/
theorem sameProbes_claim (hl : l.targets.Keyed Target.id) (limit : Nat) (now : Instant) :
    (l.claim limit now).1.SameProbes l := by
  cases hfault : l.faultyClaim with
  | true =>
      unfold claim
      rw [if_pos hfault]
      exact ⟨.refl _ _, rfl, rfl⟩
  | false =>
      rw [claim_eq hl hfault]
      exact ⟨ledgerRoster.claim_unseen (fun _ _ => rfl) limit now l.targets, rfl, rfl⟩

end Ledger

namespace Database

/-- Databases that claims cannot tell apart. -/
structure SameClaims (db db' : Database) : Prop where
  rows : Table.AgreeOn TargetRow.unprobed db.sheets.targets db'.sheets.targets
  refusals : db.targets.map (·.refusals) = db'.targets.map (·.refusals)

/-- Databases that batches cannot tell apart. -/
structure SameProbes (db db' : Database) : Prop where
  rows : Table.AgreeOn TargetRow.unclaimed db.sheets.targets db'.sheets.targets
  refusals : db.targets.map (·.refusals) = db'.targets.map (·.refusals)
  history : db.history = db'.history

/-- The table of targets is there, and its rows can be read. -/
def IsLegible (db : Database) : Prop := ∃ table, db.targets = some table ∧ table.IsLegible

variable {db db' : Database}

theorem SameClaims.refl (db : Database) : db.SameClaims db := ⟨.refl _ _, rfl⟩

theorem SameProbes.refl (db : Database) : db.SameProbes db := ⟨.refl _ _, rfl, rfl⟩

/-- A claim does the same with databases that claims cannot tell apart. -/
theorem SameClaims.claim (h : db.SameClaims db') (hdb : db.IsLegible) (hdb' : db'.IsLegible)
    (limit : Nat) (now : Instant) :
    (db.claim limit now).1.SameClaims (db'.claim limit now).1 ∧
      (db.claim limit now).2.map (List.map Target.unprobed) =
        (db'.claim limit now).2.map (List.map Target.unprobed) := by
  by_cases hlimit : limit = 0
  · subst hlimit
    exact ⟨h, rfl⟩
  obtain ⟨table, htable, hlegible⟩ := hdb
  obtain ⟨table', htable', hlegible'⟩ := hdb'
  have hrows : Table.AgreeOn TargetRow.unprobed table.rows table'.rows := by
    rw [← sheets_targets htable, ← sheets_targets htable']
    exact h.rows
  have hrefusals : table.refusals = table'.refusals := by
    have := h.refusals
    rw [htable, htable'] at this
    exact Option.some.inj this
  have hkeys : (table.queue.take limit).map TargetRow.id =
      (table'.queue.take limit).map TargetRow.id := by
    rw [List.map_take, List.map_take]
    exact congrArg (List.take limit) (databaseRoster.map_key_queue_of_agreeOn hrows)
  have hrefuses : (table.queue.take limit).any (fun row => table.refuses .claim row.id) =
      (table'.queue.take limit).any (fun row => table'.refuses .claim row.id) := by
    have hany : ∀ rows : List TargetRow, rows.any (fun row => table.refuses .claim row.id) =
        (rows.map TargetRow.id).any (table.refuses .claim) := by
      intro rows
      rw [List.any_map]
      rfl
    have hsame : table'.refuses = table.refuses := by
      unfold TargetTable.refuses
      rw [hrefusals]
    rw [hsame, hany, hany, hkeys]
  rw [claim_eq htable hlegible hlimit, claim_eq htable' hlegible' hlimit]
  unfold claimOf
  cases hmoment : decodeMillis now.toMillis with
  | error e => exact ⟨h, rfl⟩
  | ok moment =>
      simp only [hrefuses]
      split
      · exact ⟨h, rfl⟩
      · refine ⟨⟨?_, ?_⟩, ?_⟩
        · exact databaseRoster.claim_agreeOn hrows limit now.toMillis
        · exact congrArg some hrefusals
        · have hanswer : ∀ table : TargetTable, table.IsLegible →
              ((table.queue.take limit).map fun row => row.told.claimedAt (some moment)).map
                Target.unprobed =
              ((table.queue.take limit).map TargetRow.unprobed).map
                fun row => row.told.claimedAt (some moment) := by
            intro table hlegible
            rw [List.map_map, List.map_map]
            refine List.map_congr_left fun row hrow => ?_
            have hread := hlegible.decode_of_mem_queue (List.mem_of_mem_take hrow)
            show (row.told.unprobed).claimedAt (some moment) = _
            rw [← TargetRow.told_unprobed hread]
            rfl
          have hqueue : (table.queue.take limit).map TargetRow.unprobed =
              (table'.queue.take limit).map TargetRow.unprobed := by
            rw [List.map_take, List.map_take]
            exact congrArg (List.take limit) (databaseRoster.map_queue_of_agreeOn hrows)
          simp only [Except.map, hanswer table hlegible, hanswer table' hlegible', hqueue]

theorem SameProbes.symm (h : db.SameProbes db') : db'.SameProbes db :=
  ⟨h.rows.symm, h.refusals.symm, h.history.symm⟩

/-- Other rows leave the refusals. -/
theorem refusals_withSheets (db : Database)
    (s : Sheets (List UInt8) TargetRow HistoryRowKey (List UInt8)) :
    (db.withSheets s).targets.map (·.refusals) = db.targets.map (·.refusals) := by
  unfold withSheets
  rw [Option.map_map]
  rfl

/-- Claims do not see a batch. -/
theorem sameClaims_record (db : Database) (rs : List OutcomeRecord) :
    (db.record rs).1.SameClaims db := by
  obtain ⟨haccepts, hleft⟩ | ⟨_, hleft⟩ := record_cases db rs
  · rw [hleft]
    refine ⟨?_, db.refusals_withSheets _⟩
    rcases haccepts.hasTables with rfl | htables
    · have hsame : db.withSheets (databaseHand.enterAll [] db.sheets).1 = db :=
        db.withSheets_sheets
      rw [hsame]
      exact .refl _ _
    · rw [htables.sheets_withSheets]
      exact databaseHand.targets_enterAll_unseen TargetRow.unprobed_recorded rs db.sheets
  · rw [hleft]
    exact .refl db

theorem SameProbes.trans {db'' : Database} (h : db.SameProbes db') (h' : db'.SameProbes db'') :
    db.SameProbes db'' :=
  ⟨h.rows.trans h'.rows, h.refusals.trans h'.refusals, h.history.trans h'.history⟩

/-- Stamping does not show in what batches see, as far as it gets. -/
theorem sameProbes_stampAll (stamp : Int) (ts : List Target) (db : Database) :
    (effect (stampAll stamp ts) db).2.SameProbes db := by
  induction ts generalizing db with
  | nil => exact .refl db
  | cons t rest ih =>
      rw [stampAll, effect_bind]
      cases htable : db.targets with
      | none =>
          have hmissing : effect targetTable db =
              (.error (.unavailable (.noTable .targets)), db) := by
            obtain ⟨targets, history, versions⟩ := db
            obtain rfl : targets = none := htable
            rfl
          rw [hmissing]
          exact .refl db
      | some table =>
          rw [effect_targetTable htable]
          dsimp only
          cases hrefused : table.refuses .claim t.id.bytes with
          | true => exact .refl db
          | false =>
              let stamped : Database := { db with targets := some { table with
                rows := table.rows.modify t.id.bytes (TargetRow.stamped stamp) } }
              have hrows : Table.AgreeOn TargetRow.unclaimed stamped.sheets.targets
                  db.sheets.targets := by
                rw [sheets_targets htable]
                show Table.AgreeOn _ (table.rows.modify t.id.bytes (TargetRow.stamped stamp))
                  table.rows
                refine Table.AgreeOn.mapValues fun key row => ?_
                split <;> rfl
              exact (ih stamped).trans ⟨hrows, by rw [htable]; rfl, rfl⟩

/-- Batches do not see a claim, whatever the rows are. -/
theorem sameProbes_claim (db : Database) (limit : Nat) (now : Instant) :
    (db.claim limit now).1.SameProbes db := by
  unfold claim
  split
  · exact .refl db
  · rw [Session.leave_transact]
    cases hwork : effect (claimWork limit now) db with
    | mk result left =>
        cases result with
        | error e => exact .refl db
        | ok ts =>
            unfold claimWork handOut at hwork
            simp only [bind_ok_iff, lift_ok_iff, targetTable_ok_iff, pure_ok_iff] at hwork
            obtain ⟨_, _, ⟨_, rfl⟩, _, _, ⟨_, rfl⟩, claimed, before, ⟨_, rfl⟩, _, _, hstamp, _, rfl⟩ :=
              hwork
            have hleft := sameProbes_stampAll now.toMillis claimed before
            rwa [hstamp] at hleft

/-- Where the probes are the same, both have their tables or neither. -/
theorem SameProbes.hasTables (h : db.SameProbes db') (htables : db.HasTables) : db'.HasTables := by
  refine ⟨?_, h.history ▸ htables.2⟩
  rw [← Option.isSome_map (f := (·.refusals)), ← h.refusals, Option.isSome_map]
  exact htables.1

/-- Records are entered alike. -/
theorem SameProbes.entered (h : db.SameProbes db') (htables : db.HasTables)
    (rs : List OutcomeRecord) :
    (db.withSheets (databaseHand.enterAll rs db.sheets).1).SameProbes
      (db'.withSheets (databaseHand.enterAll rs db'.sheets).1) := by
  have hsheets : db.sheets.history = db'.sheets.history := by
    unfold sheets
    rw [h.history]
  refine ⟨?_, ?_, ?_⟩
  · rw [htables.sheets_withSheets, (h.hasTables htables).sheets_withSheets]
    exact databaseHand.targets_enterAll_congr TargetRow.unclaimed_recorded rs h.rows
  · rw [refusals_withSheets, refusals_withSheets, h.refusals]
  · unfold withSheets
    rw [h.history, databaseHand.history_enterAll_congr rs hsheets]

/-- What hinders a record does not depend on claims. -/
theorem SameProbes.accepts (h : db.SameProbes db') {r : OutcomeRecord} (haccepts : db.Accepts r) :
    db'.Accepts r := by
  obtain ⟨⟨table, htable, hrefuses⟩, hslot⟩ := haccepts
  have hrefusals := h.refusals
  rw [htable, Option.map_some, eq_comm, Option.map_eq_some_iff] at hrefusals
  obtain ⟨table', htable', hrefusals⟩ := hrefusals
  have hcontains := h.rows.contains r.outcome.target.bytes
  rw [sheets_targets htable, sheets_targets htable'] at hcontains
  refine ⟨⟨table', htable', ?_⟩, ?_⟩
  · intro hknown
    unfold TargetTable.refuses at hrefuses ⊢
    rw [hrefusals]
    exact hrefuses (hcontains ▸ hknown)
  · unfold AcceptsSlot
    rw [← h.history]
    exact hslot

/-- Where the probes are the same, the same batches are accepted. -/
theorem SameProbes.acceptsAll (h : db.SameProbes db') {rs : List OutcomeRecord}
    (haccepts : AcceptsAll rs db) : AcceptsAll rs db' := by
  induction rs generalizing db db' with
  | nil => trivial
  | cons r rest ih =>
      obtain ⟨haccepts, hrest⟩ := haccepts
      exact ⟨h.accepts haccepts, ih (h.entered haccepts.hasTables [r]) hrest⟩

/-- A batch does the same with databases that batches cannot tell apart. -/
theorem SameProbes.record (h : db.SameProbes db') (rs : List OutcomeRecord) :
    (db.record rs).1.SameProbes (db'.record rs).1 := by
  obtain ⟨haccepts, hleft⟩ | ⟨hhindered, hleft⟩ := record_cases db rs
  · have hdone' := record_ok_iff.2 ⟨h.acceptsAll haccepts, rfl, rfl⟩
    rw [hleft, hdone']
    rcases haccepts.hasTables with rfl | htables
    · have hsame : ∀ db : Database, db.withSheets (databaseHand.enterAll [] db.sheets).1 = db :=
        fun db => db.withSheets_sheets
      rw [hsame, hsame]
      exact h
    · exact h.entered htables rs
  · obtain ⟨haccepts', _⟩ | ⟨_, hleft'⟩ := record_cases db' rs
    · exact absurd (h.symm.acceptsAll haccepts') hhindered
    · rw [hleft, hleft']
      exact h

/-- A claim at a moment that can be told in milliseconds leaves rows that can be
read. -/
theorem IsLegible.claim (h : db.IsLegible) (limit : Nat) {now : Instant} (hnow : now.HasMillis) :
    (db.claim limit now).1.IsLegible := by
  by_cases hlimit : limit = 0
  · subst hlimit
    exact h
  obtain ⟨table, htable, hlegible⟩ := h
  rw [claim_eq htable hlegible hlimit]
  unfold claimOf
  obtain ⟨moment, hmoment⟩ := hnow.decodeMillis
  rw [hmoment]
  dsimp only
  split
  · exact ⟨table, htable, hlegible⟩
  · exact ⟨_, rfl, hlegible.claim limit hnow⟩

/-- Successes that can be told in milliseconds leave rows that can be read. -/
theorem IsLegible.record (h : db.IsLegible) {rs : List OutcomeRecord}
    (hrs : ∀ r ∈ rs, r.outcome.isSuccess → r.outcome.capturedAt.HasMillis) :
    (db.record rs).1.IsLegible := by
  obtain ⟨haccepts, hleft⟩ | ⟨_, hleft⟩ := record_cases db rs
  · obtain ⟨table, htable, hlegible⟩ := h
    have hrows : ∀ k row, db.sheets.targets.find? k = some row →
        row.id = k ∧ ∃ t, row.decode = .ok t := by
      rw [sheets_targets htable]
      exact fun k row hrow => ⟨hlegible.keyed k row hrow, hlegible.decode k row hrow⟩
    have hnote : ∀ r ∈ rs, ∀ k (row : TargetRow), (row.id = k ∧ ∃ t, row.decode = .ok t) →
        (row.recorded r.outcome).id = k ∧ ∃ t, (row.recorded r.outcome).decode = .ok t := by
      intro r hr k row hrow
      refine ⟨?_, TargetRow.decode_recorded hrow.2 (hrs r hr)⟩
      have hid := congrArg TargetRow.id (TargetRow.unprobed_recorded r.outcome row)
      exact hid.trans hrow.1
    have hall := databaseHand.forall_targets_enterAll hnote hrows
    rw [hleft]
    refine ⟨{ table with rows := (databaseHand.enterAll rs db.sheets).1.targets }, ?_, ?_, ?_⟩
    · unfold withSheets
      rw [htable]
      rfl
    · exact fun k row hrow => (hall k row hrow).1
    · exact fun k row hrow => (hall k row hrow).2
  · rw [hleft]
    exact h

end Database

namespace Backend

/-- Stores of one kind that claims cannot tell apart: they keep the same targets
with the same addresses, modes and last claims. -/
inductive SameClaims : Backend → Backend → Prop
  | ledger {l l' : Ledger} (h : l.SameClaims l') : SameClaims (.ledger l) (.ledger l')
  | database {db db' : Database} (h : db.SameClaims db') : SameClaims (.database db) (.database db')

/-- Stores of one kind that batches cannot tell apart: they keep the same
histories, and the same targets with the same results of probes. -/
inductive SameProbes : Backend → Backend → Prop
  | ledger {l l' : Ledger} (h : l.SameProbes l') : SameProbes (.ledger l) (.ledger l')
  | database {db db' : Database} (h : db.SameProbes db') : SameProbes (.database db) (.database db')

/-- Every row tells its key and can be read. -/
def IsSound : Backend → Prop
  | .ledger l => l.targets.Keyed Target.id
  | .database db => db.IsLegible

/-- Every target of a ledger tells its key.  Of a database nothing is asked. -/
def IsKeyed : Backend → Prop
  | .ledger l => l.targets.Keyed Target.id
  | .database _ => True

/-- The store can tell the moments of a call. -/
def Tells : StoreCall → Backend → Prop
  | _, .ledger _ => True
  | .claim _ now, .database _ => now.HasMillis
  | .record rs, .database _ =>
    ∀ r ∈ rs, r.outcome.isSuccess → r.outcome.capturedAt.HasMillis
  | _, .database _ => True

variable {b c d : Backend}

theorem SameClaims.refl (b : Backend) : b.SameClaims b := by
  cases b with
  | ledger l => exact .ledger ⟨.refl _ _, rfl⟩
  | database db => exact .database (.refl db)

theorem SameClaims.symm (h : b.SameClaims c) : c.SameClaims b := by
  cases h with
  | ledger h => exact .ledger ⟨h.targets.symm, h.faultyClaim.symm⟩
  | database h => exact .database ⟨h.rows.symm, h.refusals.symm⟩

theorem SameClaims.trans (h : b.SameClaims c) (h' : c.SameClaims d) : b.SameClaims d := by
  cases h with
  | ledger h =>
      cases h' with
      | ledger h' =>
          exact .ledger ⟨h.targets.trans h'.targets, h.faultyClaim.trans h'.faultyClaim⟩
  | database h =>
      cases h' with
      | database h' => exact .database ⟨h.rows.trans h'.rows, h.refusals.trans h'.refusals⟩

theorem SameProbes.refl (b : Backend) : b.SameProbes b := by
  cases b with
  | ledger l => exact .ledger ⟨.refl _ _, rfl, rfl⟩
  | database db => exact .database (.refl db)

theorem SameProbes.symm (h : b.SameProbes c) : c.SameProbes b := by
  cases h with
  | ledger h => exact .ledger ⟨h.targets.symm, h.history.symm, h.faultyRow.symm⟩
  | database h => exact .database h.symm

theorem SameProbes.trans (h : b.SameProbes c) (h' : c.SameProbes d) : b.SameProbes d := by
  cases h with
  | ledger h =>
      cases h' with
      | ledger h' =>
          exact .ledger ⟨h.targets.trans h'.targets, h.history.trans h'.history,
            h.faultyRow.trans h'.faultyRow⟩
  | database h =>
      cases h' with
      | database h' => exact .database (h.trans h')

/-- Stores that neither claims nor batches can tell apart have the same tables. -/
theorem SameClaims.sameTables (h : b.SameClaims c) (h' : b.SameProbes c) : b.SameTables c := by
  cases h with
  | ledger h =>
      cases h' with
      | ledger h' =>
          exact .ledger (h.targets.eq h'.targets Target.eq_of_unprobed_of_unclaimed) h'.history
  | @database db db' h =>
      cases h' with
      | database h' =>
          have hrows := h.rows.eq h'.rows TargetRow.eq_of_unprobed_of_unclaimed
          have hrefusals := h.refusals
          refine .database ?_ h'.history
          unfold Database.sheets at hrows
          cases htable : db.targets with
          | none =>
              rw [htable, Option.map_none, eq_comm, Option.map_eq_none_iff] at hrefusals
              exact hrefusals.symm
          | some table =>
              rw [htable, Option.map_some, eq_comm, Option.map_eq_some_iff] at hrefusals
              obtain ⟨table', htable', hrefusals⟩ := hrefusals
              rw [htable, htable'] at hrows
              obtain ⟨rows, refusals⟩ := table
              obtain ⟨rows', refusals'⟩ := table'
              obtain rfl : rows = rows' := hrows
              obtain rfl : refusals' = refusals := hrefusals
              exact htable'.symm

section Steps

/-- **Claims do not see a batch.** -/
theorem sameClaims_record (b : Backend) (rs : List OutcomeRecord) : (b.record rs).1.SameClaims b := by
  cases b with
  | ledger l => exact .ledger (l.sameClaims_record rs)
  | database db => exact .database (db.sameClaims_record rs)

/-- **Batches do not see a claim,** even one of rows that cannot be read. -/
theorem sameProbes_claim_of_keyed (hb : b.IsKeyed) (limit : Nat) (now : Instant) :
    (b.claim limit now).1.SameProbes b := by
  cases b with
  | ledger l => exact .ledger (Ledger.sameProbes_claim hb limit now)
  | database db => exact .database (db.sameProbes_claim limit now)

/-- The rows of a sound store stand under their own keys. -/
theorem IsSound.isKeyed (hb : b.IsSound) : b.IsKeyed := by
  cases b with
  | ledger l => exact hb
  | database db => trivial

/-- A claim changes nothing that probes tell. -/
theorem sameProbes_claim (hb : b.IsSound) (limit : Nat) (now : Instant) :
    (b.claim limit now).1.SameProbes b :=
  sameProbes_claim_of_keyed hb.isKeyed limit now

/-- A claim does the same with stores that claims cannot tell apart. -/
theorem SameClaims.claim (h : b.SameClaims c) (hb : b.IsSound) (hc : c.IsSound) (limit : Nat)
    (now : Instant) :
    (b.claim limit now).1.SameClaims (c.claim limit now).1 ∧
      (b.claim limit now).2.map (List.map Target.unprobed) =
        (c.claim limit now).2.map (List.map Target.unprobed) := by
  cases h with
  | ledger h =>
      obtain ⟨hleft, hanswer⟩ := h.claim hb hc limit now
      exact ⟨.ledger hleft, hanswer⟩
  | database h =>
      obtain ⟨hleft, hanswer⟩ := h.claim hb hc limit now
      exact ⟨.database hleft, hanswer⟩

/-- A batch does the same with stores that batches cannot tell apart. -/
theorem SameProbes.record (h : b.SameProbes c) (rs : List OutcomeRecord) :
    (b.record rs).1.SameProbes (c.record rs).1 := by
  cases h with
  | ledger h => exact .ledger (h.record rs)
  | database h => exact .database (h.record rs)

/-- Calls that are no claims leave what claims see. -/
theorem sameClaims_answer {call : StoreCall} (hcall : call.isClaim = false) (b : Backend) :
    (b.answer call).1.SameClaims b := by
  cases hrecord : call.isRecord with
  | false =>
      rw [answer_look hcall hrecord]
      exact .refl b
  | true =>
      cases call with
      | record rs =>
          rw [answer_record]
          exact b.sameClaims_record rs
      | _ => cases hrecord

/-- Calls that are no batches leave what batches see. -/
theorem sameProbes_answer {call : StoreCall} (hcall : call.isRecord = false) (hb : b.IsSound) :
    (b.answer call).1.SameProbes b := by
  cases hclaim : call.isClaim with
  | false =>
      rw [answer_look hclaim hcall]
      exact .refl b
  | true =>
      cases call with
      | claim limit now =>
          rw [answer_claim]
          exact sameProbes_claim hb limit now
      | _ => cases hclaim

/-- What a store can tell does not change. -/
theorem tells_answer (call call' : StoreCall) (b : Backend) :
    (b.answer call).1.Tells call' = b.Tells call' := by
  cases b <;> cases call' <;> rfl

/-- A call whose moments can be told leaves rows that can be read. -/
theorem IsSound.answer (hb : b.IsSound) {call : StoreCall} (hcall : b.Tells call) :
    (b.answer call).1.IsSound := by
  cases call with
  | target id =>
      rw [answer_look rfl rfl]
      exact hb
  | range target owner first last =>
      rw [answer_look rfl rfl]
      exact hb
  | claim limit now =>
      rw [answer_claim]
      cases b with
      | ledger l =>
          show (l.claim limit now).1.targets.Keyed Target.id
          cases hfault : l.faultyClaim with
          | true =>
              unfold Ledger.claim
              rw [if_pos hfault]
              exact hb
          | false =>
              rw [Ledger.claim_eq hb hfault]
              exact ledgerRoster.keyed_claim hb limit now
      | database db => exact Database.IsLegible.claim hb limit hcall
  | record rs =>
      rw [answer_record]
      cases b with
      | ledger l =>
          show (l.record rs).1.targets.Keyed Target.id
          rcases Ledger.record_cases l.faultyRow rs with hdone | ⟨e, hfailed⟩
          · rw [hdone l rfl]
            refine ledgerHand.forall_targets_enterAll (fun r _ k t ht => ?_) hb
            exact (congrArg Target.id (Target.unprobed_recorded r.outcome t)).trans ht
          · rw [hfailed l rfl]
            exact hb
      | database db => exact Database.IsLegible.record hb hcall

end Steps

section Runs

/-- The calls after the first can be told after it. -/
theorem tells_rest {call : StoreCall} {rest : List StoreCall}
    (h : ∀ call' ∈ call :: rest, b.Tells call') : ∀ call' ∈ rest, (b.answer call).1.Tells call' := by
  intro call' hcall'
  rw [tells_answer]
  exact h call' (List.mem_cons_of_mem _ hcall')

/-- **The claims of a run** are answered as if they came alone. -/
theorem SameClaims.serve (h : b.SameClaims c) (hb : b.IsSound) (hc : c.IsSound)
    {calls : List StoreCall} (hcalls : ∀ call ∈ calls, b.Tells call) :
    (PeerWatch.serve answer calls b).1.SameClaims
        (PeerWatch.serve answer (calls.filter StoreCall.isClaim) c).1 ∧
      (handedOut calls b).map (Except.map (List.map Target.unprobed)) =
        (handedOut (calls.filter StoreCall.isClaim) c).map
          (Except.map (List.map Target.unprobed)) := by
  induction calls generalizing b c with
  | nil => exact ⟨h, rfl⟩
  | cons call rest ih =>
      have hhead := hcalls call List.mem_cons_self
      have hsound := hb.answer hhead
      have hrest := tells_rest hcalls
      cases hclaim : call.isClaim with
      | false =>
          have hsame := (sameClaims_answer hclaim b).trans h
          rw [List.filter_cons_of_neg (by simp [hclaim]), handedOut_cons_of_not_claim hclaim]
          exact ih hsame hsound hc hrest
      | true =>
          cases call with
          | claim limit now =>
              have hhead' : c.Tells (.claim limit now) := by
                cases h with
                | ledger _ => trivial
                | database _ => exact hhead
              have hsound' := hc.answer hhead'
              obtain ⟨hsame, hanswer⟩ := h.claim hb hc limit now
              rw [answer_claim] at hsound hsound' hrest
              obtain ⟨hleft, hanswers⟩ := ih hsame hsound hsound' hrest
              rw [List.filter_cons_of_pos rfl]
              constructor
              · rw [PeerWatch.serve, PeerWatch.serve, answer_claim, answer_claim]
                exact hleft
              · rw [handedOut, handedOut, List.map_cons, List.map_cons, hanswer, hanswers]
          | _ => cases hclaim

/-- **The batches of a run** leave what they would leave if they came alone. -/
theorem SameProbes.serve (h : b.SameProbes c) (hb : b.IsSound) {calls : List StoreCall}
    (hcalls : ∀ call ∈ calls, b.Tells call) :
    (PeerWatch.serve answer calls b).1.SameProbes
      (PeerWatch.serve answer (calls.filter StoreCall.isRecord) c).1 := by
  induction calls generalizing b c with
  | nil => exact h
  | cons call rest ih =>
      have hsound := hb.answer (hcalls call List.mem_cons_self)
      have hrest := tells_rest hcalls
      cases hrecord : call.isRecord with
      | false =>
          rw [List.filter_cons_of_neg (by simp [hrecord])]
          exact ih ((sameProbes_answer hrecord hb).trans h) hsound hrest
      | true =>
          cases call with
          | record rs =>
              rw [List.filter_cons_of_pos rfl, PeerWatch.serve, PeerWatch.serve]
              refine ih ?_ hsound hrest
              rw [answer_record, answer_record]
              exact h.record rs
          | _ => cases hrecord

/-- A claim does not tear its caller down. -/
def BearsClaim : StoreCall → Backend → Prop
  | .claim limit _, b => b.claimTears limit = false
  | _, _ => True

/-- **The order between claims and batches does not matter.**  Take two runs of
calls that have the same claims in the same order and the same batches in the
same order.  They leave the same tables, and every claim is answered alike but
for what is known of probes: a batch changes nothing that claims see, and a
claim nothing that batches see. -/
theorem interleavings_agree {b : Backend} (hb : b.IsSound) {xs ys : List StoreCall}
    (hcalls : ∀ call ∈ xs, b.Tells call ∧ b.BearsClaim call)
    (hclaims : xs.filter StoreCall.isClaim = ys.filter StoreCall.isClaim)
    (hrecords : xs.filter StoreCall.isRecord = ys.filter StoreCall.isRecord) :
    (PeerWatch.serve answer xs b).1.SameTables (PeerWatch.serve answer ys b).1 ∧
    (handedOut xs b).map (Except.map (List.map Target.unprobed)) =
      (handedOut ys b).map (Except.map (List.map Target.unprobed)) ∧
    (∀ (c : Backend) (rs : List OutcomeRecord), (c.record rs).1.SameClaims c) ∧
    (∀ (c : Backend) (limit : Nat) (now : Instant), c.IsSound →
      (c.claim limit now).1.SameProbes c) := by
  have hxs : ∀ call ∈ xs, b.Tells call := fun call hcall => (hcalls call hcall).1
  have hys : ∀ call ∈ ys, b.Tells call := by
    intro call hcall
    cases hclaim : call.isClaim with
    | true =>
        have hmem : call ∈ xs.filter StoreCall.isClaim :=
          hclaims ▸ List.mem_filter.2 ⟨hcall, hclaim⟩
        exact hxs call (List.mem_filter.1 hmem).1
    | false =>
        cases hrecord : call.isRecord with
        | true =>
            have hmem : call ∈ xs.filter StoreCall.isRecord :=
              hrecords ▸ List.mem_filter.2 ⟨hcall, hrecord⟩
            exact hxs call (List.mem_filter.1 hmem).1
        | false =>
            cases call with
            | claim limit now => cases hclaim
            | record rs => cases hrecord
            | target id => cases b <;> trivial
            | range target owner first last => cases b <;> trivial
  obtain ⟨hleft, hanswers⟩ := (SameClaims.refl b).serve hb hb hxs
  obtain ⟨hleft', hanswers'⟩ := (SameClaims.refl b).serve hb hb hys
  have hprobes := (SameProbes.refl b).serve hb hxs
  have hprobes' := (SameProbes.refl b).serve hb hys
  rw [hclaims] at hleft hanswers
  rw [hrecords] at hprobes
  refine ⟨(hleft.trans hleft'.symm).sameTables (hprobes.trans hprobes'.symm), ?_, ?_, ?_⟩
  · rw [hanswers, hanswers']
  · exact fun c rs => c.sameClaims_record rs
  · exact fun c limit now hc => sameProbes_claim hc limit now

/-- A claim comes before a batch, or after it. -/
theorem interleavings_agree_claim_and_batch :
    ∃ (b : Backend) (claim batch : StoreCall),
      claim.isClaim ∧ batch.isRecord ∧ b.IsSound ∧
      (PeerWatch.serve answer [claim, batch] b).1.SameTables
        (PeerWatch.serve answer [batch, claim] b).1 := by
  let row : TargetRow := .ofTarget (.fresh default "peer:1" .ping)
  let b : Backend := .database ⟨some ⟨(∅ : Table _ _).insert row.id row, []⟩, some ⟨∅, []⟩, [1]⟩
  let claim : StoreCall := .claim 1 default
  let batch : StoreCall := .record [.ofOutcome .nil ⟨default, default, 7, none⟩]
  have hsound : b.IsSound :=
    ⟨_, rfl, (TargetTable.isLegible_empty []).insert ⟨.fresh default "peer:1" .ping, by rfl⟩⟩
  have hcalls : ∀ call ∈ [claim, batch], b.Tells call ∧ b.BearsClaim call := by
    intro call hcall
    rcases List.mem_cons.1 hcall with rfl | hcall
    · exact ⟨Instant.hasMillis_of_not_leap rfl, rfl⟩
    · obtain rfl := List.mem_singleton.1 hcall
      refine ⟨?_, trivial⟩
      intro r hr _
      obtain rfl := List.mem_singleton.1 hr
      exact Instant.hasMillis_of_not_leap rfl
  obtain ⟨hsame, _⟩ := @interleavings_agree b hsound [claim, batch] [batch, claim] hcalls rfl rfl
  exact ⟨b, claim, batch, rfl, rfl, hsound, hsame⟩

/-- A success in the leap second at the end of the calendar is recorded, and then
nothing is handed out any more: before it, the target was. -/
theorem interleavings_differ_at_calendar_end :
    ∃ (b : Backend) (claim batch : StoreCall) (e : StoreError) (t : Target),
      claim.isClaim ∧ batch.isRecord ∧ b.IsSound ∧
      handedOut [batch, claim] b = [.error e] ∧ handedOut [claim, batch] b = [.ok [t]] := by
  let row : TargetRow := .ofTarget (.fresh default "peer:1" .ping)
  let last : Instant := ⟨8210266876799, 1500000000, by decide, by decide⟩
  let o : Outcome := ⟨default, last, 7, none⟩
  let table (row : TargetRow) : TargetTable := ⟨(∅ : Table _ _).insert row.id row, []⟩
  let db : Database := ⟨some (table row), some ⟨∅, []⟩, [1]⟩
  let t : Target := (Target.fresh default "peer:1" .ping).claimedAt (some default)
  have hnow : Instant.HasMillis default := Instant.hasMillis_of_not_leap rfl
  have hread : ∃ t, row.decode = .ok t := ⟨.fresh default "peer:1" .ping, by rfl⟩
  have hlegible : (table row).IsLegible := (TargetTable.isLegible_empty []).insert hread
  -- the claim that comes first finds the row as it was put in
  have hclaimed : (db.claim 1 default).2 = .ok [t] := by
    have hqueue : (table row).queue = [row] := List.mergeSort_singleton _
    have hclaim := Database.claim_eq (rfl : db.targets = some (table row)) hlegible
      Nat.one_ne_zero default
    unfold Database.claimOf at hclaim
    rw [hclaim, hqueue]
    rfl
  -- the one that comes second finds a success that cannot be read
  have hrefused : (((db.record [.ofOutcome .nil o]).1).claim 1 default).2 =
      .error (.corrupt (.timestamp last.toMillis)) := by
    have hrecorded : (db.record [.ofOutcome .nil o]).1.targets = some (table (row.recorded o)) := rfl
    have hqueue : (table (row.recorded o)).queue = [row.recorded o] := List.mergeSort_singleton _
    have hunreadable : (row.recorded o).decode = .error (.corrupt (.timestamp last.toMillis)) :=
      TargetRow.decode_recorded_of_not_hasMillis hread rfl (by decide)
    have hrows : decodeRows ((table (row.recorded o)).queue.take 1) =
        .error (.corrupt (.timestamp last.toMillis)) := by
      rw [hqueue, List.take_of_length_le (Nat.le_refl 1), decodeRows, hunreadable]
    rw [Database.claim_of_unreadable hrecorded Nat.one_ne_zero hnow hrows]
  refine ⟨.database db, .claim 1 default, .record [.ofOutcome .nil o],
    .corrupt (.timestamp last.toMillis), t, rfl, rfl, ⟨_, rfl, hlegible⟩, ?_, ?_⟩
  · exact congrArg (fun answer => [answer]) hrefused
  · exact congrArg (fun answer => [answer]) hclaimed

end Runs

end Backend

end PeerWatch
