import PeerWatch.Proofs.Refinement
import PeerWatch.Proofs.Rosters

/-!
# How the two stores claim

Ledger and database hand out targets by one roster each, over typed rows and
over raw ones.  A ledger does so unless a fault is set; a database, unless its
table is missing, the moment cannot be told in milliseconds, one of the rows
to be handed out cannot be read or refuses the stamp.

* `ledgerRoster`, `databaseRoster` — the rosters;
* `TargetRow.decode_eq_ok_iff`, `TargetTable.IsLegible` — rows that can be read;
* `Ledger.claim_eq`, `Database.claim_eq` — what a claim does.
-/

namespace PeerWatch

open Calendar

namespace Calendar.Instant

instance : Std.TransOrd Instant :=
  inferInstanceAs (Std.TransCmp (compareLex (compareOn fun t : Instant => t.seconds)
    (compareOn fun t : Instant => t.nanos)))

/-- The moment can be told in whole milliseconds: all can, but the leap second at
the end of the calendar, whose milliseconds run on into a year that there is not. -/
def HasMillis (t : Instant) : Prop := (ofMillis? t.toMillis).isSome

instance (t : Instant) : Decidable t.HasMillis :=
  inferInstanceAs (Decidable ((ofMillis? t.toMillis).isSome = true))

/-- Only a leap second can be beyond the milliseconds of the calendar. -/
theorem hasMillis_of_not_leap {t : Instant} (h : t.isLeapSecond = false) : t.HasMillis := by
  rw [HasMillis, ofMillis?_toMillis h]
  rfl

/-- Milliseconds are told by a whole moment. -/
theorem of_ofMillis? {ms : Int} {t : Instant} (h : ofMillis? ms = some t) :
    t.toMillis = ms ∧ t.IsWhole := by
  unfold ofMillis? at h
  split at h
  · obtain rfl := Option.some.inj h
    simp only [toMillis, IsWhole]
    omega
  · cases h

end Calendar.Instant

/-- A stored moment reads as the moment of its milliseconds. -/
theorem decodeMillis_eq_ok_iff {ms : Int} {t : Instant} :
    decodeMillis ms = .ok t ↔ Instant.ofMillis? ms = some t := by
  unfold decodeMillis
  cases Instant.ofMillis? ms <;> simp

/-- A moment that can be told in milliseconds can be read from them. -/
theorem Calendar.Instant.HasMillis.decodeMillis {t : Instant} (h : t.HasMillis) :
    ∃ moment, PeerWatch.decodeMillis t.toMillis = .ok moment := by
  obtain ⟨moment, hmoment⟩ := Option.isSome_iff_exists.1 h
  exact ⟨moment, decodeMillis_eq_ok_iff.2 hmoment⟩

section Rosters

/-- The target without what is known of its probes. -/
def Target.unprobed (t : Target) : Target :=
  { t with lastSuccessAt := none, lastLatency := none, lastProbeOk := none }

/-- The row without what is known of the probes of its target. -/
def TargetRow.unprobed (row : TargetRow) : TargetRow :=
  { row with lastSuccessAt := none, lastLatency := none, lastProbeOk := none }

/-- How a ledger hands out targets. -/
def ledgerRoster : Roster TargetId Target Instant where
  key := Target.id
  isEnabled := Target.isEnabled
  claimed := Target.lastClaimedAt
  stamp moment t := t.claimedAt (some moment)
  bare := Target.unprobed
  key_stamp _ _ := rfl
  isEnabled_stamp _ _ := rfl
  claimed_stamp _ _ := rfl
  key_bare _ := rfl
  isEnabled_bare _ := rfl
  claimed_bare _ := rfl
  bare_stamp _ _ := rfl

/-- How a database hands out rows. -/
def databaseRoster : Roster (List UInt8) TargetRow Int where
  key := TargetRow.id
  isEnabled row := row.mode ≠ ProbeMode.off.name
  claimed := TargetRow.lastClaimedAt
  stamp := TargetRow.stamped
  bare := TargetRow.unprobed
  key_stamp _ _ := rfl
  isEnabled_stamp _ _ := rfl
  claimed_stamp _ _ := rfl
  key_bare _ := rfl
  isEnabled_bare _ := rfl
  claimed_bare _ := rfl
  bare_stamp _ _ := rfl

/-- The queue of a table is the queue of the roster of its rows. -/
theorem TargetTable.queue_eq (table : TargetTable) :
    table.queue = databaseRoster.queue table.rows := rfl

end Rosters

section LedgerClaims

/-- Putting claimed targets in changes their rows in place. -/
theorem putClaimed_eq {now : Instant} {ts : List Target} {targets : Table TargetId Target}
    (hfound : ∀ t ∈ ts, ∃ moment, targets.find? t.id = some (t.claimedAt moment)) :
    putClaimed now ts targets =
      (ts.map Target.id).foldl (fun targets id => targets.modify id (·.claimedAt (some now)))
        targets := by
  induction ts generalizing targets with
  | nil => rfl
  | cons t rest ih =>
      obtain ⟨moment, ht⟩ := hfound t List.mem_cons_self
      have hstep : putClaimed now (t :: rest) targets =
          putClaimed now rest (targets.modify t.id (·.claimedAt (some now))) := by
        rw [← Table.insert_claimedAt ht now]
        rfl
      rw [hstep, ih]
      · rfl
      · intro t' ht'
        obtain ⟨moment', hmoment'⟩ := hfound t' (List.mem_cons_of_mem _ ht')
        rw [Table.find?_modify]
        split
        · exact ⟨some now, by rw [hmoment']; rfl⟩
        · exact ⟨moment', hmoment'⟩

/-- **A claim from a ledger** stamps the first of the queue, and hands them out
with the stamp. -/
theorem Ledger.claim_eq {l : Ledger} (hkeyed : l.targets.Keyed Target.id)
    (hfree : l.faultyClaim = false) (limit : Nat) (now : Instant) :
    l.claim limit now = ({ l with targets := ledgerRoster.claim limit now l.targets },
      .ok ((l.queue.take limit).map (·.claimedAt (some now)))) := by
  have hfound : ∀ t ∈ l.queue.take limit,
      ∃ moment, l.targets.find? t.id = some (t.claimedAt moment) := fun t ht =>
    ⟨t.lastClaimedAt, Ledger.find?_of_mem_queue hkeyed (List.mem_of_mem_take ht)⟩
  have hagain : ∀ t : Target, (t.claimedAt (some now)).claimedAt (some now) =
      t.claimedAt (some now) := fun _ => rfl
  have htargets : putClaimed now (l.queue.take limit) l.targets =
      ledgerRoster.claim limit now l.targets := by
    refine Table.ext_find? fun id => ?_
    rw [putClaimed_eq hfound, Table.find?_foldl_modify hagain, Roster.claim, Table.find?_mapValues]
    by_cases hid : id ∈ (l.queue.take limit).map Target.id
    · have hid' : id ∈ ((ledgerRoster.queue l.targets).take limit).map ledgerRoster.key := hid
      simp only [hid, hid', if_true]
      rfl
    · have hid' : id ∉ ((ledgerRoster.queue l.targets).take limit).map ledgerRoster.key := hid
      simp only [hid, hid', if_false, Option.map_id']
  rw [Ledger.claim_of_no_fault hfree, htargets]

end LedgerClaims

section Legibility

/-- The mode of a name has that name. -/
theorem ProbeMode.name_of_ofName? {name : String} {mode : ProbeMode}
    (h : ProbeMode.ofName? name = some mode) : mode.name = name := by
  unfold ProbeMode.ofName? at h
  have hname := List.find?_some h
  exact of_decide_eq_true hname

/-- The identity of some bytes has those bytes. -/
theorem TargetId.bytes_of_ofBytes? {bytes : List UInt8} {id : TargetId}
    (h : TargetId.ofBytes? bytes = some id) : id.bytes = bytes := by
  unfold TargetId.ofBytes? at h
  split at h
  · obtain rfl := Option.some.inj h
    rfl
  · cases h

/-- **What a row tells:** the target whose identity, address and mode it has, with
what its integers tell. -/
theorem TargetRow.decode_eq_ok_iff {row : TargetRow} {t : Target} :
    row.decode = .ok t ↔
      t.id.bytes = row.id ∧ t.address = row.address ∧ t.mode.name = row.mode ∧
      decodeOptional decodeMillis row.lastClaimedAt = .ok t.lastClaimedAt ∧
      decodeOptional decodeMillis row.lastSuccessAt = .ok t.lastSuccessAt ∧
      decodeOptional (decodeLatency t.id) row.lastLatency = .ok t.lastLatency ∧
      t.lastProbeOk = row.lastProbeOk.map (fun v => decide (v ≠ 0)) := by
  unfold decode
  constructor
  · intro h
    split at h
    · cases h
    · next id hid =>
        split at h
        · cases h
        · next mode hmode =>
            cases hclaimed : decodeOptional decodeMillis row.lastClaimedAt with
            | error e => simp [hclaimed, bind, Except.bind] at h
            | ok claimed =>
                cases hsuccess : decodeOptional decodeMillis row.lastSuccessAt with
                | error e => simp [hclaimed, hsuccess, bind, Except.bind] at h
                | ok success =>
                    cases hlatency : decodeOptional (decodeLatency id) row.lastLatency with
                    | error e => simp [hclaimed, hsuccess, hlatency, bind, Except.bind] at h
                    | ok latency =>
                        simp only [hclaimed, hsuccess, hlatency, bind, Except.bind] at h
                        obtain rfl := Except.ok.inj h
                        exact ⟨TargetId.bytes_of_ofBytes? hid, rfl, ProbeMode.name_of_ofName? hmode,
                          rfl, rfl, hlatency, rfl⟩
  · intro h
    obtain ⟨hid, haddress, hmode, hclaimed, hsuccess, hlatency, hok⟩ := h
    rw [← hid, ← hmode, ofBytes?_bytes, ofName?_name]
    simp only [hclaimed, hsuccess, hlatency, bind, Except.bind, ← hok, ← haddress]
    rfl

/-- The target a row tells of. -/
def TargetRow.told (row : TargetRow) : Target := row.decode.toOption.getD default

/-- A row that reads as a target reads as the one it tells of. -/
theorem TargetRow.decode_told {row : TargetRow} (h : ∃ t, row.decode = .ok t) :
    row.decode = .ok row.told := by
  obtain ⟨t, ht⟩ := h
  rw [told, ht]
  rfl

/-- A row that can be read can be read without what is known of the probes. -/
theorem TargetRow.told_unprobed {row : TargetRow} (h : ∃ t, row.decode = .ok t) :
    row.unprobed.told = row.told.unprobed := by
  obtain ⟨hid, haddress, hmode, hclaimed, -, -, -⟩ := decode_eq_ok_iff.1 (decode_told h)
  have hdecode : row.unprobed.decode = .ok row.told.unprobed :=
    decode_eq_ok_iff.2 ⟨hid, haddress, hmode, hclaimed, rfl, rfl, rfl⟩
  rw [told, hdecode]
  rfl

/-- Rows that can be read are all read. -/
theorem decodeRows_eq_ok {rows : List TargetRow} (h : ∀ row ∈ rows, ∃ t, row.decode = .ok t) :
    decodeRows rows = .ok (rows.map TargetRow.told) := by
  induction rows with
  | nil => rfl
  | cons row rest ih =>
      have hrest := ih fun row hrow => h row (List.mem_cons_of_mem _ hrow)
      rw [decodeRows, TargetRow.decode_told (h row List.mem_cons_self), hrest]
      rfl

/-- Every row tells its key and can be read. -/
structure TargetTable.IsLegible (table : TargetTable) : Prop where
  keyed : table.rows.Keyed TargetRow.id
  decode : ∀ key row, table.rows.find? key = some row → ∃ t, row.decode = .ok t

theorem TargetTable.isLegible_empty (refusals : List (GuardedWrite × List UInt8)) :
    TargetTable.IsLegible ⟨∅, refusals⟩ where
  keyed := Table.Keyed.empty
  decode _ _ h := by cases h

/-- A row that can be read, put in under its key. -/
theorem TargetTable.IsLegible.insert {table : TargetTable} (h : table.IsLegible) {row : TargetRow}
    (hrow : ∃ t, row.decode = .ok t) :
    TargetTable.IsLegible { table with rows := table.rows.insert row.id row } where
  keyed := h.keyed.insert rfl
  decode key row' hfound := by
    rw [Table.find?_insert] at hfound
    split at hfound
    · obtain rfl := Option.some.inj hfound
      exact hrow
    · exact h.decode key row' hfound

/-- Every row of the queue reads as a target. -/
theorem TargetTable.IsLegible.decode_of_mem_queue {table : TargetTable} (h : table.IsLegible)
    {row : TargetRow} (hrow : row ∈ table.queue) : ∃ t, row.decode = .ok t :=
  h.decode _ row ((databaseRoster.mem_queue_iff h.keyed).1 hrow).1

/-- A stamp that can be read leaves a row that can be read. -/
theorem TargetRow.decode_stamped {row : TargetRow} (h : ∃ t, row.decode = .ok t) {stamp : Int}
    {moment : Instant} (hmoment : decodeMillis stamp = .ok moment) :
    (row.stamped stamp).decode = .ok (row.told.claimedAt (some moment)) := by
  obtain ⟨hid, haddress, hmode, -, hsuccess, hlatency, hok⟩ := decode_eq_ok_iff.1 (decode_told h)
  have hclaimed : decodeOptional decodeMillis (row.stamped stamp).lastClaimedAt =
      .ok (some moment) := by
    simp only [stamped, decodeOptional, hmoment]
    rfl
  exact decode_eq_ok_iff.2 ⟨hid, haddress, hmode, hclaimed, hsuccess, hlatency, hok⟩

/-- The row of a fresh target, with a stamp that can be read. -/
theorem TargetRow.told_stamped_ofTarget {t : Target} (h : t.IsFresh) {stamp : Int}
    {moment : Instant} (hmoment : Instant.ofMillis? stamp = some moment) :
    (∃ t', ((ofTarget t).stamped stamp).decode = .ok t') ∧
      ((ofTarget t).stamped stamp).told = t.claimedAt (some moment) := by
  have hencode : ofTarget t = encode t := by
    rw [h]
    rfl
  have hread : (ofTarget t).decode = .ok t := by
    rw [hencode]
    exact decode_encode h.isWhole
  have htold : (ofTarget t).told = t := by
    rw [told, hread]
    rfl
  have hstamped := decode_stamped ⟨t, hread⟩ (decodeMillis_eq_ok_iff.2 hmoment)
  rw [htold] at hstamped
  refine ⟨⟨_, hstamped⟩, ?_⟩
  rw [told, hstamped]
  rfl

/-- A success that can be told in milliseconds leaves a row that can be read. -/
theorem TargetRow.decode_recorded {row : TargetRow} (h : ∃ t, row.decode = .ok t) {o : Outcome}
    (ho : o.isSuccess → o.capturedAt.HasMillis) : ∃ t, (row.recorded o).decode = .ok t := by
  obtain ⟨hid, haddress, hmode, hclaimed, hsuccess, hlatency, hok⟩ := decode_eq_ok_iff.1 (decode_told h)
  unfold recorded
  cases hkind : o.isSuccess with
  | false =>
      exact ⟨{ row.told with lastProbeOk := some false },
        decode_eq_ok_iff.2 ⟨hid, haddress, hmode, hclaimed, hsuccess, hlatency, rfl⟩⟩
  | true =>
      obtain ⟨moment, hmoment⟩ := (ho hkind).decodeMillis
      have hsuccess' : decodeOptional decodeMillis (some o.capturedAt.toMillis) =
          .ok (some moment) := by
        simp only [decodeOptional, hmoment]
        rfl
      have hlatency' : decodeOptional (decodeLatency row.told.id) (some (o.latency.toNat : Int)) =
          .ok (some o.latency) := decodeOptional_latency row.told.id (some o.latency)
      exact ⟨{ row.told with lastSuccessAt := some moment, lastLatency := some o.latency,
                             lastProbeOk := some true },
        decode_eq_ok_iff.2 ⟨hid, haddress, hmode, hclaimed, hsuccess', hlatency', rfl⟩⟩

/-- Any other success leaves a row that cannot be read. -/
theorem TargetRow.decode_recorded_of_not_hasMillis {row : TargetRow} (h : ∃ t, row.decode = .ok t)
    {o : Outcome} (ho : o.isSuccess) (hmillis : ¬ o.capturedAt.HasMillis) :
    (row.recorded o).decode = .error (.corrupt (.timestamp o.capturedAt.toMillis)) := by
  obtain ⟨hid, -, hmode, hclaimed, -, -, -⟩ := decode_eq_ok_iff.1 (decode_told h)
  have hsuccess : decodeOptional decodeMillis (some o.capturedAt.toMillis) =
      .error (.corrupt (.timestamp o.capturedAt.toMillis)) := by
    have hnone := Option.isSome_eq_false_iff.1 (Bool.eq_false_iff.2 hmillis)
    simp only [decodeOptional, decodeMillis, Option.isNone_iff_eq_none.1 hnone]
    rfl
  unfold recorded decode
  rw [if_pos ho]
  simp only [← hid, ← hmode, ofBytes?_bytes, ofName?_name, hclaimed, hsuccess]
  rfl

/-- A claim at a moment that can be told in milliseconds leaves rows that can be
read. -/
theorem TargetTable.IsLegible.claim {table : TargetTable} (h : table.IsLegible) (limit : Nat)
    {now : Instant} (hnow : now.HasMillis) :
    TargetTable.IsLegible
      { table with rows := databaseRoster.claim limit now.toMillis table.rows } where
  keyed := databaseRoster.keyed_claim h.keyed limit _
  decode key row hfound := by
    obtain ⟨moment, hmoment⟩ := hnow.decodeMillis
    rw [Roster.claim, Table.find?_mapValues, Option.map_eq_some_iff] at hfound
    obtain ⟨row', hrow', rfl⟩ := hfound
    split
    · exact ⟨_, TargetRow.decode_stamped (h.decode key row' hrow') hmoment⟩
    · exact h.decode key row' hrow'

end Legibility

namespace Database

variable {db : Database} {table : TargetTable}

/-- The tables with the first of the queue stamped. -/
def claimed (db : Database) (table : TargetTable) (limit : Nat) (stamp : Int) : Database :=
  { db with targets := some { table with rows := databaseRoster.claim limit stamp table.rows } }

/-- Stamping fails if one of the targets refuses it. -/
theorem effect_stampAll_of_refused (h : db.targets = some table) (stamp : Int) {ts : List Target}
    (hrefused : ∃ t ∈ ts, table.refuses .claim t.id.bytes) :
    (effect (stampAll stamp ts) db).1 = .error (.unavailable .rejected) := by
  induction ts generalizing db table with
  | nil =>
      obtain ⟨t, ht, _⟩ := hrefused
      cases ht
  | cons t rest ih =>
      let stamped : TargetTable :=
        { table with rows := table.rows.modify t.id.bytes (TargetRow.stamped stamp) }
      have hset : effect (setTargetRows table (table.rows.modify t.id.bytes fun row =>
          { row with lastClaimedAt := some stamp })) db =
          (.ok (), { db with targets := some stamped }) := rfl
      rw [stampAll, effect_bind, effect_targetTable h]
      cases hhead : table.refuses .claim t.id.bytes with
      | true =>
          simp only [hhead, if_true]
          rfl
      | false =>
          simp only [hhead, Bool.false_eq_true, if_false]
          rw [effect_bind, hset]
          obtain ⟨t', ht', hrefused⟩ := hrefused
          rcases List.mem_cons.1 ht' with rfl | ht'
          · rw [hhead] at hrefused
            cases hrefused
          · have hnext : ({ db with targets := some stamped } : Database).targets = some stamped :=
              rfl
            exact ih hnext ⟨t', ht', hrefused⟩

/-- Stamping the targets that rows tell of stamps the rows. -/
theorem stampRows_told {limit : Nat}
    (hread : ∀ row ∈ table.queue.take limit, ∃ t, row.decode = .ok t) (stamp : Int) :
    stampRows stamp ((table.queue.take limit).map TargetRow.told) table.rows =
      databaseRoster.claim limit stamp table.rows := by
  have hkeys : ((table.queue.take limit).map TargetRow.told).map (·.id.bytes) =
      ((databaseRoster.queue table.rows).take limit).map databaseRoster.key := by
    rw [List.map_map]
    refine List.map_congr_left fun row hrow => ?_
    exact (TargetRow.decode_eq_ok_iff.1 (TargetRow.decode_told (hread row hrow))).1
  have hstamp : stampRows stamp ((table.queue.take limit).map TargetRow.told) table.rows =
      (((table.queue.take limit).map TargetRow.told).map (·.id.bytes)).foldl
        (fun rows key => rows.modify key (TargetRow.stamped stamp)) table.rows := by
    rw [List.foldl_map]
    rfl
  have hagain : ∀ row : TargetRow, (row.stamped stamp).stamped stamp = row.stamped stamp :=
    fun _ => rfl
  refine Table.ext_find? fun key => ?_
  rw [hstamp, hkeys, Table.find?_foldl_modify hagain, Roster.claim, Table.find?_mapValues]
  by_cases hkey : key ∈ ((databaseRoster.queue table.rows).take limit).map databaseRoster.key
  · simp only [hkey, if_true]
    rfl
  · simp only [hkey, if_false, Option.map_id']

/-- What a claim answers, and what it leaves if it succeeds. -/
def claimOf (db : Database) (table : TargetTable) (limit : Nat) (now : Instant) :
    Database × Except StoreError (List Target) :=
  match decodeMillis now.toMillis with
  | .error e => (db, .error e)
  | .ok moment =>
    if (table.queue.take limit).any fun row => table.refuses .claim row.id then
      (db, .error (.unavailable .rejected))
    else
      (db.claimed table limit now.toMillis,
        .ok ((table.queue.take limit).map fun row => row.told.claimedAt (some moment)))

/-- **A claim from a database** whose first rows can be read, whatever the others
are. -/
theorem claim_eq_of_read (h : db.targets = some table) {limit : Nat} (hlimit : limit ≠ 0)
    (hread : ∀ row ∈ table.queue.take limit, ∃ t, row.decode = .ok t) (now : Instant) :
    db.claim limit now = db.claimOf table limit now := by
  let rows := table.queue.take limit
  have hids : ∀ row ∈ rows, row.told.id.bytes = row.id := fun row hrow =>
    (TargetRow.decode_eq_ok_iff.1 (TargetRow.decode_told (hread row hrow))).1
  have hclaim : db.claim limit now =
      Session.leave ((Session.idle db).transact .free (claimWork limit now)) := by
    unfold claim
    rw [if_neg hlimit]
  rw [hclaim, Session.leave_transact]
  unfold claimWork claimOf handOut
  rw [effect_bind]
  cases hmoment : decodeMillis now.toMillis with
  | error e => rfl
  | ok moment =>
      rw [effect_lift]
      dsimp only
      rw [effect_bind, effect_targetTable h]
      dsimp only
      rw [effect_bind, effect_lift, decodeRows_eq_ok hread]
      dsimp only
      rw [effect_bind]
      by_cases hrefused : ∃ row ∈ rows, table.refuses .claim row.id
      · obtain ⟨row, hrow, hrefused⟩ := hrefused
        have hstamp : (effect (stampAll now.toMillis (rows.map TargetRow.told)) db).1 =
            .error (.unavailable .rejected) := by
          refine effect_stampAll_of_refused h _ ⟨row.told, List.mem_map_of_mem hrow, ?_⟩
          rw [hids row hrow]
          exact hrefused
        have hany : (rows.any fun row => table.refuses .claim row.id) = true :=
          List.any_eq_true.2 ⟨row, hrow, hrefused⟩
        rw [if_pos hany]
        cases hleft : effect (stampAll now.toMillis (rows.map TargetRow.told)) db with
        | mk result left =>
            rw [hleft] at hstamp
            obtain rfl : result = .error (.unavailable .rejected) := hstamp
            rfl
      · have haccepted : ∀ t ∈ rows.map TargetRow.told, table.refuses .claim t.id.bytes = false := by
          intro t ht
          obtain ⟨row, hrow, rfl⟩ := List.mem_map.1 ht
          rw [hids row hrow]
          exact Bool.eq_false_iff.2 fun hrefuses => hrefused ⟨row, hrow, hrefuses⟩
        have hany : ¬ (rows.any fun row => table.refuses .claim row.id) = true := by
          rw [List.any_eq_true]
          exact hrefused
        rw [if_neg hany, effect_stampAll_of_accepted h _ haccepted, stampRows_told hread,
          List.map_map]
        rfl

/-- A claim from a database whose rows can all be read. -/
theorem claim_eq (h : db.targets = some table) (hlegible : table.IsLegible) {limit : Nat}
    (hlimit : limit ≠ 0) (now : Instant) : db.claim limit now = db.claimOf table limit now :=
  claim_eq_of_read h hlimit
    (fun _ hrow => hlegible.decode_of_mem_queue (List.mem_of_mem_take hrow)) now

/-- A claim that nothing hinders stamps the first of the queue, and hands out the
targets they tell of with the stamp. -/
theorem claim_of_taken_accepted (h : db.targets = some table) (hlegible : table.IsLegible)
    {limit : Nat} (hfree : ∀ row ∈ table.queue.take limit, table.refuses .claim row.id = false)
    {now moment : Instant} (hmoment : Instant.ofMillis? now.toMillis = some moment) :
    db.claim limit now = (db.claimed table limit now.toMillis,
      .ok ((table.queue.take limit).map fun row => row.told.claimedAt (some moment))) := by
  by_cases hlimit : limit = 0
  · subst hlimit
    have hsame : db.claimed table 0 now.toMillis = db := by
      unfold claimed
      rw [databaseRoster.claim_zero, ← h]
    rw [hsame]
    rfl
  · have hany : ¬ ((table.queue.take limit).any fun row => table.refuses .claim row.id) = true := by
      rw [List.any_eq_true]
      intro hrefused
      obtain ⟨row, hrow, hrefused⟩ := hrefused
      rw [hfree row hrow] at hrefused
      cases hrefused
    rw [claim_eq h hlegible hlimit]
    unfold claimOf
    rw [decodeMillis_eq_ok_iff.2 hmoment]
    dsimp only
    rw [if_neg hany]

/-- So it is where no target refuses its stamp. -/
theorem claim_of_accepted (h : db.targets = some table) (hlegible : table.IsLegible)
    (hfree : ∀ id, table.refuses .claim id = false) {now moment : Instant}
    (hmoment : Instant.ofMillis? now.toMillis = some moment) (limit : Nat) :
    db.claim limit now = (db.claimed table limit now.toMillis,
      .ok ((table.queue.take limit).map fun row => row.told.claimedAt (some moment))) :=
  claim_of_taken_accepted h hlegible (fun row _ => hfree row.id) hmoment

/-- **A claim fails** at the first row to be handed out that cannot be read. -/
theorem claim_of_unreadable (h : db.targets = some table) {limit : Nat} (hlimit : limit ≠ 0)
    {now : Instant} (hnow : now.HasMillis) {e : StoreError}
    (hrows : decodeRows (table.queue.take limit) = .error e) :
    db.claim limit now = (db, .error e) := by
  obtain ⟨moment, hmoment⟩ := hnow.decodeMillis
  have hwork : effect (claimWork limit now) db = (.error e, db) := by
    unfold claimWork handOut
    rw [effect_bind, effect_lift, hmoment]
    dsimp only
    rw [effect_bind, effect_targetTable h]
    dsimp only
    rw [effect_bind, effect_lift, hrows]
  unfold claim
  rw [if_neg hlimit, Session.leave_transact, hwork]

end Database

end PeerWatch
