import PeerWatch.Proofs.Exclusion
import PeerWatch.Proofs.Readback

/-!
# What one claim takes and what it leaves

A claim takes the enabled targets that have waited longest, as many as are asked for or as
there are.  It notes its moment in their rows, hands them out as they stand there then,
and touches nothing else: no other field, no other row, no history.

* `Backend.Admits` — nothing stands in the way of a claim;
* `Backend.stamped` — a store with the moment of a claim noted in some rows;
* `Backend.claim_eq_stamped` — what a claim answers and leaves;
* `Backend.claim_takes_the_longest_waiting`.
-/

namespace PeerWatch

open Calendar

namespace Backend

/-- The moment as a store tells it: a database in whole milliseconds. -/
def floored (now : Instant) : Backend → Instant
  | .ledger _ => now
  | .database _ => now.floorMillis

/-- The store with the moment of a claim noted in the rows of some targets. -/
def stamped (ids : List TargetId) (now : Instant) : Backend → Backend
  | .ledger l => .ledger { l with
      targets := l.targets.mapValues fun id t =>
        if id ∈ ids then { t with lastClaimedAt := some now } else t }
  | .database db => .database { db with
      targets := db.targets.map fun table => { table with
        rows := table.rows.mapValues fun key row =>
          if key ∈ ids.map TargetId.bytes then { row with lastClaimedAt := some now.toMillis }
          else row } }

/-- None of some targets refuses its stamp, and no claim is made to fail. -/
def Accepts (ids : List TargetId) : Backend → Prop
  | .ledger l => l.faultyClaim = false
  | .database db => ∀ table, db.targets = some table →
      ∀ id ∈ ids, table.refuses .claim id.bytes = false

/-- Nothing stands in the way of a claim: the rows can be read, there is room for the
answer, the moment can be told, and what would be taken may be stamped. -/
structure Admits (limit : Nat) (now : Instant) (b : Backend) : Prop where
  sound : b.IsSound
  room : b.claimTears limit = false
  moment : now.isLeapSecond = false
  accepts : b.Accepts ((b.queue.take limit).map Target.id)

variable {b : Backend} {limit : Nat} {now : Instant}

section Tables

/-- In a store whose rows can be read, targets with one identity are one. -/
theorem IsSound.eq_of_id_eq (hb : b.IsSound) {t t' : Target} (ht : t ∈ b.targets)
    (ht' : t' ∈ b.targets) (hid : t.id = t'.id) : t = t' := by
  cases b with
  | ledger l =>
      have hkeyed : l.targets.Keyed Target.id := hb
      have hfound := hkeyed.mem_values_iff.1 ht
      rw [hid, hkeyed.mem_values_iff.1 ht'] at hfound
      exact (Option.some.inj hfound).symm
  | database db =>
      obtain ⟨table, htable, hlegible⟩ := hb
      have htargets : (database db).targets = table.rows.values.map TargetRow.told := by
        rw [targets, Database.sheets_targets htable]
      rw [htargets] at ht ht'
      obtain ⟨row, hrow, rfl⟩ := List.mem_map.1 ht
      obtain ⟨row', hrow', rfl⟩ := List.mem_map.1 ht'
      have hfound := hlegible.keyed.mem_values_iff.1 hrow
      have hfound' := hlegible.keyed.mem_values_iff.1 hrow'
      have hrowid := (TargetRow.decode_eq_ok_iff.1
        (TargetRow.decode_told (hlegible.decode _ row hfound))).1
      have hrowid' := (TargetRow.decode_eq_ok_iff.1
        (TargetRow.decode_told (hlegible.decode _ row' hfound'))).1
      rw [← hrowid, hid, hrowid', hfound'] at hfound
      rw [Option.some.inj hfound]

/-- A row that can be read tells the noted moment after a stamp. -/
theorem told_stamped {row : TargetRow} (h : ∃ t, row.decode = .ok t)
    (hnow : now.isLeapSecond = false) :
    TargetRow.told { row with lastClaimedAt := some now.toMillis } =
      row.told.claimedAt (some now.floorMillis) := by
  have hmoment : decodeMillis now.toMillis = .ok now.floorMillis :=
    decodeMillis_eq_ok_iff.2 (Instant.ofMillis?_toMillis hnow)
  have hdecode := TargetRow.decode_stamped h hmoment
  show (TargetRow.stamped now.toMillis row).told = _
  rw [TargetRow.told, hdecode]
  rfl

/-- **The targets after a stamp:** those that were stamped tell its moment, and the others
what they told. -/
theorem targets_stamped (hb : b.IsSound) (hnow : now.isLeapSecond = false)
    (ids : List TargetId) :
    (b.stamped ids now).targets =
      b.targets.map fun t => if t.id ∈ ids then t.claimedAt (some (b.floored now)) else t := by
  cases b with
  | ledger l =>
      show (l.targets.mapValues _).values = l.targets.values.map _
      rw [Table.values, Table.values, Table.mapValues, List.map_map, List.map_map]
      refine List.map_congr_left ?_
      intro e he
      have hkey : e.2.id = e.1 := hb e.1 e.2 (Table.find?_eq_some_iff.2 he)
      show (if e.1 ∈ ids then e.2.claimedAt (some now) else e.2) =
        if e.2.id ∈ ids then e.2.claimedAt (some now) else e.2
      rw [hkey]
  | database db =>
      obtain ⟨table, htable, hlegible⟩ := hb
      have hafter : ((database db).stamped ids now).targets =
          (table.rows.mapValues fun key row =>
            if key ∈ ids.map TargetId.bytes then
              { row with lastClaimedAt := some now.toMillis } else row).values.map
            TargetRow.told := by
        simp only [stamped, targets, htable, Option.map_some, Database.sheets, Option.getD_some]
      have hbefore : (database db).targets = table.rows.values.map TargetRow.told := by
        rw [targets, Database.sheets_targets htable]
      rw [hafter, hbefore, Table.values, Table.values, Table.mapValues, List.map_map, List.map_map,
        List.map_map, List.map_map]
      refine List.map_congr_left ?_
      intro e he
      obtain ⟨key, row⟩ := e
      have hfound := Table.find?_eq_some_iff.2 he
      have hread := hlegible.decode key row hfound
      have hbytes : row.told.id.bytes = key :=
        (TargetRow.decode_eq_ok_iff.1 (TargetRow.decode_told hread)).1.trans
          (hlegible.keyed key row hfound)
      have hmem : key ∈ ids.map TargetId.bytes ↔ row.told.id ∈ ids := by
        rw [← hbytes, List.mem_map]
        constructor
        · intro hsome
          obtain ⟨id, hid, heq⟩ := hsome
          exact TargetId.eq_of_bytes_eq heq ▸ hid
        · intro hid
          exact ⟨_, hid, rfl⟩
      simp only [Function.comp, hmem]
      split
      · exact told_stamped hread hnow
      · rfl

end Tables

/-- **A claim** that nothing stands in the way of stamps the first of the queue, and hands
them out with the stamp. -/
theorem claim_eq_stamped (h : b.Admits limit now) :
    b.claim limit now =
      (b.stamped ((b.queue.take limit).map Target.id) now,
        .ok ((b.queue.take limit).map (·.claimedAt (some (b.floored now))))) := by
  obtain ⟨hsound, -, hnow, haccepts⟩ := h
  cases b with
  | ledger l =>
      rw [claim_ledger, Ledger.claim_eq hsound haccepts]
      rfl
  | database db =>
      obtain ⟨table, htable, hlegible⟩ := hsound
      have hqueue : (database db).queue.take limit =
          (table.queue.take limit).map TargetRow.told := by
        rw [queue_database htable hlegible, ← List.map_take]
        rfl
      have hread : ∀ row ∈ table.queue.take limit, row.told.id.bytes = row.id := fun row hrow =>
        (TargetRow.decode_eq_ok_iff.1 (TargetRow.decode_told
          (hlegible.decode_of_mem_queue (List.mem_of_mem_take hrow)))).1
      have hids : (((database db).queue.take limit).map Target.id).map TargetId.bytes =
          (table.queue.take limit).map TargetRow.id := by
        rw [hqueue, List.map_map, List.map_map]
        exact List.map_congr_left hread
      have hfree : ∀ row ∈ table.queue.take limit, table.refuses .claim row.id = false := by
        intro row hrow
        rw [← hread row hrow]
        refine haccepts table htable _ ?_
        rw [hqueue, List.map_map]
        exact List.mem_map_of_mem hrow
      have hclaim := Database.claim_of_taken_accepted htable hlegible hfree
        (Instant.ofMillis?_toMillis hnow)
      have hrows : (table.rows.mapValues fun key row =>
          if key ∈ (table.queue.take limit).map TargetRow.id then
            { row with lastClaimedAt := some now.toMillis } else row) =
          databaseRoster.claim limit now.toMillis table.rows := by
        refine congrArg table.rows.mapValues (funext fun key => funext fun row => ?_)
        by_cases hkey : key ∈ (table.queue.take limit).map TargetRow.id
        · rw [if_pos hkey]
          exact (if_pos hkey).symm
        · rw [if_neg hkey]
          exact (if_neg hkey).symm
      rw [claim_database, hclaim]
      refine Prod.ext ?_ (congrArg Except.ok ?_)
      · simp only [stamped, htable, Option.map_some, hids, hrows]
        rfl
      · rw [hqueue, List.map_map]
        rfl

/-- What a claim notes shows in no history. -/
theorem sameHistory_stamped (b : Backend) (ids : List TargetId) (now : Instant) :
    b.SameHistory (b.stamped ids now) := by
  cases b with
  | ledger l => exact .ledger rfl
  | database db => exact .database rfl

/-- **A claim takes those that have waited longest.**  If nothing stands in its way, it
takes the first of the enabled targets, in the order of their last claims and of their
identities, as many as are asked for or as there are; it hands them out with its moment
noted; and but for this moment in their rows the store is what it was. -/
theorem claim_takes_the_longest_waiting (h : b.Admits limit now) :
    ∃ taken rest : List Target,
      (taken ++ rest).Perm (b.targets.filter (·.mode ≠ .off)) ∧
      (taken ++ rest).Pairwise (fun t t' => staleBefore t t') ∧
      ((taken ++ rest).map Target.id).Nodup ∧
      taken.length = min limit (b.targets.filter (·.mode ≠ .off)).length ∧
      b.claim limit now = (b.stamped (taken.map Target.id) now,
        .ok (taken.map fun t => { t with lastClaimedAt := some (b.floored now) })) ∧
      (b.stamped (taken.map Target.id) now).targets = b.targets.map (fun t =>
        if t ∈ taken then { t with lastClaimedAt := some (b.floored now) } else t) ∧
      (∀ t ∈ taken, t ∈ b.targets ∧ t.mode ≠ .off) ∧
      b.SameHistory (b.stamped (taken.map Target.id) now) := by
  have hperm : b.queue.Perm (b.targets.filter (·.isEnabled)) := List.mergeSort_perm _ _
  have hmem : ∀ t ∈ b.queue.take limit, t ∈ b.targets ∧ t.mode ≠ .off := by
    intro t ht
    obtain ⟨htarget, henabled⟩ := List.mem_filter.1 (hperm.mem_iff.1 (List.mem_of_mem_take ht))
    exact ⟨htarget, of_decide_eq_true henabled⟩
  refine ⟨b.queue.take limit, b.queue.drop limit, ?_, ?_, ?_, ?_, claim_eq_stamped h, ?_, hmem,
    sameHistory_stamped b _ now⟩
  · rw [List.take_append_drop]
    exact hperm
  · rw [List.take_append_drop]
    exact List.pairwise_mergeSort ledgerRoster.before_trans ledgerRoster.before_total _
  · rw [List.take_append_drop]
    exact nodup_map_id_queue h.sound
  · rw [List.length_take, hperm.length_eq]
    rfl
  · rw [targets_stamped h.sound h.moment]
    refine List.map_congr_left fun t ht => ?_
    have htaken : t.id ∈ (b.queue.take limit).map Target.id ↔ t ∈ b.queue.take limit := by
      constructor
      · intro hid
        obtain ⟨t', ht', heq⟩ := List.mem_map.1 hid
        exact h.sound.eq_of_id_eq (hmem t' ht').1 ht heq ▸ ht'
      · exact List.mem_map_of_mem
    simp only [htaken]
    rfl

/-- A claim for five targets comes to a database that has one, and another that is not to
be probed: the one is handed out, its moment cut to milliseconds. -/
theorem claim_takes_the_longest_waiting_one_enabled :
    ∃ (b : Backend) (t idle : Target) (now moment : Instant), b.Admits 5 now ∧
      b.targets = [t, idle] ∧ now.nanos = 500400300 ∧ moment.nanos = 500000000 ∧
      (b.claim 5 now).2 = .ok [{ t with lastClaimedAt := some moment }] ∧
      (b.claim 5 now).1.targets = [{ t with lastClaimedAt := some moment }, idle] := by
  let t : Target := .fresh default "peer:1" .ping
  let idle : Target := .fresh ⟨List.replicate 32 1, rfl⟩ "peer:2" .off
  let now : Instant := ⟨60, 500400300, by decide, by decide⟩
  let table : TargetTable :=
    ⟨((∅ : Table _ _).insert (TargetRow.ofTarget t).id (.ofTarget t)).insert
      (TargetRow.ofTarget idle).id (.ofTarget idle), []⟩
  let b : Backend := .database ⟨some table, some ⟨∅, []⟩, [1]⟩
  have hlegible : table.IsLegible :=
    ((TargetTable.isLegible_empty []).insert ⟨t, by rfl⟩).insert ⟨idle, by rfl⟩
  have hadmits : b.Admits 5 now := by
    refine ⟨⟨table, rfl, hlegible⟩, by decide, by decide, ?_⟩
    intro table' htable' id _
    obtain rfl := Option.some.inj htable'
    rfl
  have htargets : b.targets = [t, idle] := by rfl
  obtain ⟨taken, rest, hperm, -, -, hlength, hclaim, hafter, -, -⟩ :=
    claim_takes_the_longest_waiting hadmits
  have henabled : b.targets.filter (·.mode ≠ .off) = [t] := by
    rw [htargets]
    rfl
  rw [henabled] at hperm hlength
  obtain rfl : rest = [] := by
    have hall := hperm.length_eq
    rw [List.length_append, hlength] at hall
    exact List.length_eq_zero_iff.1 (by simpa using hall)
  rw [List.append_nil, List.perm_singleton] at hperm
  subst hperm
  refine ⟨b, t, idle, now, now.floorMillis, hadmits, htargets, rfl, by decide, ?_, ?_⟩
  · rw [hclaim]
    rfl
  · rw [hclaim, hafter, htargets]
    decide

end Backend

end PeerWatch
