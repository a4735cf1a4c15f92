import Mathlib.Algebra.Ring.Nat
import PeerWatch.Proofs.Interleavings

/-!
# Nobody gets a target twice

Several loaders may claim from one store, and nothing tells the store which of
them holds what.  What keeps them apart is the queue: as long as the moments of
the claims are later than all stamps that were there before, the claims go
through the queue from its head, however they are cut and whatever batches come
between them.

* `Backend.queue`, `Backend.kept` — the queue, and a moment as a store keeps it;
* `Backend.Upcoming` — the targets that are still to be handed out;
* `Backend.Upcoming.claim`, `Backend.Upcoming.serve` — one claim, and any calls;
* `Backend.claims_walk_the_queue` — the claims hand out the queue in its order.
-/

namespace PeerWatch

open Calendar

/-- The target as if nothing had happened to it. -/
def Target.renewed (t : Target) : Target := .fresh t.id t.address t.mode

/-- How many targets are asked for by the claims among some calls. -/
def claimLimits (calls : List StoreCall) : List Nat :=
  calls.filterMap fun
    | .claim limit _ => some limit
    | _ => none

/-- The moments of the claims among some calls. -/
def claimMoments (calls : List StoreCall) : List Instant :=
  calls.filterMap fun
    | .claim _ now => some now
    | _ => none

/-- No moment is earlier than one before it. -/
def IsForward (moments : List Instant) : Prop :=
  moments.Pairwise fun earlier later => (compare earlier later).isLE

section Telling

/-- A moment that was read from milliseconds is told by them. -/
theorem eq_map_of_decodeOptional {ms? : Option Int} {moment? : Option Instant}
    (h : decodeOptional decodeMillis ms? = .ok moment?) :
    ms? = moment?.map Instant.toMillis ∧ ∀ t ∈ moment?, t.IsWhole := by
  cases ms? with
  | none =>
      obtain rfl := Except.ok.inj h
      exact ⟨rfl, fun _ ht => by cases ht⟩
  | some ms =>
      cases hmoment : decodeMillis ms with
      | error e =>
          rw [decodeOptional, hmoment] at h
          cases h
      | ok moment =>
          rw [decodeOptional, hmoment] at h
          obtain rfl := Except.ok.inj h
          obtain ⟨htold, hwhole⟩ := Instant.of_ofMillis? (decodeMillis_eq_ok_iff.1 hmoment)
          refine ⟨congrArg some htold.symm, ?_⟩
          intro t ht
          obtain rfl := Option.some.inj ht
          exact hwhole

variable {row row' : TargetRow}

/-- The stamp of a row is that of the target it tells of, in whole milliseconds. -/
theorem TargetRow.claimed_told (h : ∃ t, row.decode = .ok t) :
    row.lastClaimedAt = row.told.lastClaimedAt.map Instant.toMillis ∧
      ∀ t ∈ row.told.lastClaimedAt, t.IsWhole := by
  obtain ⟨-, -, -, hclaimed, -, -, -⟩ := decode_eq_ok_iff.1 (decode_told h)
  exact eq_map_of_decodeOptional hclaimed

/-- Rows stand in the order of the targets they tell of. -/
theorem TargetRow.staleRow_told (h : ∃ t, row.decode = .ok t) (h' : ∃ t, row'.decode = .ok t) :
    staleRow row row' = staleBefore row.told row'.told := by
  obtain ⟨hmillis, hwhole⟩ := claimed_told h
  obtain ⟨hmillis', hwhole'⟩ := claimed_told h'
  have hids : compare row.id row'.id = compare row.told.id row'.told.id := by
    rw [← (decode_eq_ok_iff.1 (decode_told h)).1, ← (decode_eq_ok_iff.1 (decode_told h')).1]
    rfl
  simp only [staleRow, staleBefore, hmillis, hmillis',
    Instant.compareClaims_toMillis hwhole hwhole', hids]

/-- A row tells of an enabled target unless its mode is that of targets that are off. -/
theorem TargetRow.isEnabled_told (h : ∃ t, row.decode = .ok t) :
    row.told.isEnabled = decide (row.mode ≠ ProbeMode.off.name) := by
  obtain ⟨-, -, hmode, -, -, -, -⟩ := decode_eq_ok_iff.1 (decode_told h)
  rw [← hmode]
  unfold Target.isEnabled
  cases row.told.mode <;> decide

end Telling

namespace Backend

/-- The targets that a store tells of. -/
def targets : Backend → List Target
  | .ledger l => l.targets.values
  | .database db => db.sheets.targets.values.map TargetRow.told

/-- The enabled targets: those never claimed, then those claimed longest ago; of
those claimed at once, by identity. -/
def queue (b : Backend) : List Target := (b.targets.filter (·.isEnabled)).mergeSort staleBefore

/-- The moment as a store keeps it: a database in whole milliseconds. -/
def kept (now : Instant) : Backend → Instant
  | .ledger _ => now
  | .database _ => (Instant.ofMillis? now.toMillis).getD now

/-- No claim is made to fail, and no target refuses its stamp. -/
def HandsOut : Backend → Prop
  | .ledger l => l.faultyClaim = false
  | .database db =>
    ∀ table, db.targets = some table → ∀ id, table.refuses .claim id = false

/-- The claims among some calls ask for no more targets than the queue has, the
first of them at a moment later than every stamp that the store has. -/
structure AsksInOrder (calls : List StoreCall) (b : Backend) : Prop where
  enough : (claimLimits calls).sum ≤ b.queue.length
  later : ∀ first ∈ (claimMoments calls).head?, ∀ t ∈ b.targets,
    ∀ past ∈ t.lastClaimedAt, compare past (b.kept first) = .lt

/-- Every claim gets as many targets as it asks for, all claims together get the
first of the queue in its order, and nobody gets a target twice. -/
def WalksQueue (calls : List StoreCall) (b : Backend) : Prop :=
  ∃ handed : List (List Target),
    handedOut calls b = handed.map .ok ∧ handed.map List.length = claimLimits calls ∧
      handed.flatten.map Target.renewed =
        (b.queue.take (claimLimits calls).sum).map Target.renewed ∧
      (handed.flatten.map Target.id).Nodup

/-- The targets that are still to be handed out, as claims see them: they stand
at the head of the queue, and what stands behind them has later stamps. -/
inductive Upcoming : List Target → Backend → Prop
  | ledger {l : Ledger} {ts : List Target} (hfree : l.faultyClaim = false)
      (h : ledgerRoster.Upcoming ts l.targets) : Upcoming ts (.ledger l)
  | database {db : Database} {table : TargetTable} {rows : List TargetRow}
      (htable : db.targets = some table) (hfree : ∀ id, table.refuses .claim id = false)
      (hlegible : table.IsLegible) (hread : ∀ row ∈ rows, ∃ t, row.decode = .ok t)
      (h : databaseRoster.Upcoming rows table.rows) :
      Upcoming (rows.map TargetRow.told) (.database db)

variable {b c : Backend} {ts : List Target}

section Queues

/-- The queue of a database is the queue of its rows, told as targets. -/
theorem queue_database {db : Database} {table : TargetTable} (htable : db.targets = some table)
    (hlegible : table.IsLegible) :
    (database db).queue = (databaseRoster.queue table.rows).map TargetRow.told := by
  have hread : ∀ row ∈ table.rows.values, ∃ t, row.decode = .ok t := fun row hrow =>
    hlegible.decode _ row (hlegible.keyed.mem_values_iff.1 hrow)
  have htargets : (database db).targets = table.rows.values.map TargetRow.told := by
    rw [targets, Database.sheets_targets htable]
  rw [queue, htargets, List.filter_map, Roster.queue, List.map_mergeSort (s := staleBefore)]
  · congr 2
    exact List.filter_congr fun row hrow => TargetRow.isEnabled_told (hread row hrow)
  · intro a ha b hb
    exact TargetRow.staleRow_told (hread a (List.mem_filter.1 ha).1)
      (hread b (List.mem_filter.1 hb).1)

/-- In the beginning the whole queue is to be handed out. -/
theorem upcoming_queue (hb : b.IsSound) (hfree : b.HandsOut) : b.Upcoming b.queue := by
  cases b with
  | ledger l => exact .ledger hfree (ledgerRoster.upcoming_queue hb)
  | database db =>
      obtain ⟨table, htable, hlegible⟩ := hb
      rw [queue_database htable hlegible]
      exact .database htable (hfree table htable) hlegible
        (fun row hrow => hlegible.decode_of_mem_queue hrow)
        (databaseRoster.upcoming_queue hlegible.keyed)

/-- In the queue every identity occurs once. -/
theorem nodup_map_id_queue (hb : b.IsSound) : (b.queue.map Target.id).Nodup := by
  cases b with
  | ledger l => exact ledgerRoster.nodup_map_key_queue hb
  | database db =>
      obtain ⟨table, htable, hlegible⟩ := hb
      have hbytes : ((database db).queue.map Target.id).map TargetId.bytes =
          (databaseRoster.queue table.rows).map databaseRoster.key := by
        rw [queue_database htable hlegible, List.map_map, List.map_map]
        refine List.map_congr_left fun row hrow => ?_
        have hread := hlegible.decode_of_mem_queue hrow
        exact (TargetRow.decode_eq_ok_iff.1 (TargetRow.decode_told hread)).1
      have hnodup := databaseRoster.nodup_map_key_queue hlegible.keyed
      rw [← hbytes] at hnodup
      exact List.Pairwise.of_map TargetId.bytes
        (fun _ _ hne heq => hne (congrArg TargetId.bytes heq)) hnodup

end Queues

/-- Targets are only upcoming in a store that is sound. -/
theorem Upcoming.isSound (h : b.Upcoming ts) : b.IsSound := by
  cases h with
  | ledger _ h => exact h.keyed
  | database htable _ hlegible _ _ => exact ⟨_, htable, hlegible⟩

section Steps

/-- What claims do not see leaves the targets that are to be handed out. -/
theorem Upcoming.congr (h : b.Upcoming ts) (hsame : c.SameClaims b) (hc : c.IsSound) :
    c.Upcoming ts := by
  cases h with
  | @ledger l ts hfree h =>
      cases hsame with
      | @ledger l' _ hsame =>
          exact .ledger (hsame.faultyClaim.trans hfree) (h.congr hc hsame.targets.symm)
  | @database db table rows htable hfree hlegible hread h =>
      cases hsame with
      | @database db' _ hsame =>
          obtain ⟨table', htable', hlegible'⟩ := hc
          have hrows : Table.AgreeOn TargetRow.unprobed table'.rows table.rows := by
            rw [← Database.sheets_targets htable, ← Database.sheets_targets htable']
            exact hsame.rows
          have hrefusals := hsame.refusals
          rw [htable, htable'] at hrefusals
          have hrefusals : table'.refusals = table.refusals := Option.some.inj hrefusals
          have hfree' : ∀ id, table'.refuses .claim id = false := by
            intro id
            unfold TargetTable.refuses
            rw [hrefusals]
            exact hfree id
          exact .database htable' hfree' hlegible' hread (h.congr hlegible'.keyed hrows.symm)

/-- **A claim** hands out the first of the targets that are to be handed out, and
the others come next. -/
theorem Upcoming.claim (h : b.Upcoming ts) {limit : Nat} (hlimit : limit ≤ ts.length)
    {now : Instant} (hnow : b.Tells (.claim limit now))
    (hlater : ∀ t ∈ ts, ∀ past ∈ t.lastClaimedAt, compare past (b.kept now) = .lt) :
    (b.claim limit now).1.Upcoming (ts.drop limit) ∧
      ∃ handed, (b.claim limit now).2 = .ok handed ∧
        handed.map Target.unprobed =
          (ts.take limit).map fun t => t.unprobed.claimedAt (some (b.kept now)) := by
  cases h with
  | @ledger l ts hfree h =>
      have hclaim := Ledger.claim_eq h.keyed hfree limit now
      rw [claim_ledger, hclaim]
      refine ⟨.ledger hfree (h.claim hlimit hlater), _, rfl, ?_⟩
      have htake := congrArg (List.map (·.claimedAt (some now))) (h.map_take hlimit)
      rw [List.map_map, List.map_map] at htake
      rw [List.map_map]
      exact htake
  | @database db table rows htable hfree hlegible hread h =>
      have hlimit : limit ≤ rows.length := by simpa using hlimit
      obtain ⟨moment, hmoment⟩ := Option.isSome_iff_exists.1 hnow
      have hkept : (Backend.database db).kept now = moment := by
        rw [kept, hmoment, Option.getD_some]
      rw [hkept] at hlater ⊢
      have hlater' : ∀ row ∈ rows, ∀ past ∈ row.lastClaimedAt,
          compare past now.toMillis = .lt := by
        intro row hrow past hpast
        obtain ⟨htold, hwhole⟩ := TargetRow.claimed_told (hread row hrow)
        obtain ⟨hmillis, hwhole'⟩ := Instant.of_ofMillis? hmoment
        rw [htold] at hpast
        obtain ⟨past', hpast', rfl⟩ := Option.map_eq_some_iff.1 hpast
        rw [← hmillis, Instant.compare_toMillis (hwhole past' hpast') hwhole']
        exact hlater row.told (List.mem_map_of_mem hrow) past' hpast'
      have hclaim := Database.claim_of_accepted htable hlegible hfree hmoment limit
      rw [claim_database, hclaim, ← List.map_drop]
      have hnext := hlegible.claim limit hnow
      refine ⟨.database rfl hfree hnext (fun row hrow => hread row (List.mem_of_mem_drop hrow))
        (h.claim hlimit hlater'), _, rfl, ?_⟩
      have htold : ∀ rows : List TargetRow, (∀ row ∈ rows, ∃ t, row.decode = .ok t) →
          rows.map (fun row => row.told.unprobed.claimedAt (some moment)) =
            (rows.map TargetRow.unprobed).map fun row => row.told.claimedAt (some moment) := by
        intro rows hread
        rw [List.map_map]
        refine List.map_congr_left fun row hrow => ?_
        rw [← TargetRow.told_unprobed (hread row hrow)]
        rfl
      have hqueue := htold (table.queue.take limit) fun row hrow =>
        hlegible.decode_of_mem_queue (List.mem_of_mem_take hrow)
      have hrows := htold (rows.take limit) fun row hrow => hread row (List.mem_of_mem_take hrow)
      have htake : (table.queue.take limit).map TargetRow.unprobed =
          (rows.take limit).map TargetRow.unprobed := h.map_take hlimit
      rw [htake, ← hrows] at hqueue
      rw [List.map_map, ← List.map_take, List.map_map]
      exact hqueue

end Steps

section Runs

/-- A call that is no claim asks for nothing, at no moment. -/
theorem claims_cons_of_not_claim {call : StoreCall} (h : call.isClaim = false)
    (rest : List StoreCall) :
    claimLimits (call :: rest) = claimLimits rest ∧
      claimMoments (call :: rest) = claimMoments rest := by
  cases call with
  | claim limit now => cases h
  | _ => exact ⟨rfl, rfl⟩

/-- **Any calls** whose claims do not ask for more than is to be handed out, at
moments later than all its stamps: they hand it out from its head. -/
theorem Upcoming.serve (h : b.Upcoming ts) {calls : List StoreCall}
    (hcalls : ∀ call ∈ calls, b.Tells call) (hsum : (claimLimits calls).sum ≤ ts.length)
    (hlater : ∀ now ∈ claimMoments calls, ∀ t ∈ ts, ∀ past ∈ t.lastClaimedAt,
      compare past (b.kept now) = .lt) :
    ∃ handed : List (List Target),
      handedOut calls b = handed.map .ok ∧ handed.map List.length = claimLimits calls ∧
        handed.flatten.map Target.renewed =
          (ts.take (claimLimits calls).sum).map Target.renewed := by
  induction calls generalizing b ts with
  | nil => exact ⟨[], rfl, rfl, rfl⟩
  | cons call rest ih =>
      have hrest := tells_rest hcalls
      have hkept : ∀ now, (b.answer call).1.kept now = b.kept now := by
        intro now
        cases b <;> rfl
      cases hclaim : call.isClaim with
      | false =>
          obtain ⟨hlimits, hmoments⟩ := claims_cons_of_not_claim hclaim rest
          rw [hlimits] at hsum ⊢
          rw [hmoments] at hlater
          rw [handedOut_cons_of_not_claim hclaim]
          have hsound := h.isSound.answer (hcalls call List.mem_cons_self)
          refine ih (h.congr (sameClaims_answer hclaim b) hsound) hrest hsum ?_
          intro now hnow
          rw [hkept]
          exact hlater now hnow
      | true =>
          cases call with
          | claim limit now =>
              have hlimits : claimLimits (.claim limit now :: rest) = limit :: claimLimits rest := rfl
              have hmoments : claimMoments (.claim limit now :: rest) = now :: claimMoments rest :=
                rfl
              rw [hlimits, List.sum_cons] at hsum
              rw [hmoments] at hlater
              obtain ⟨hnext, first, hfirst, htargets⟩ := h.claim (by omega)
                (hcalls _ List.mem_cons_self) (hlater now List.mem_cons_self)
              rw [answer_claim] at hrest hkept
              have hsum' : (claimLimits rest).sum ≤ (ts.drop limit).length := by
                rw [List.length_drop]
                omega
              obtain ⟨handed, hhanded, hlengths, hwalked⟩ := ih hnext hrest hsum' <| by
                intro now' hnow' t ht
                rw [hkept]
                exact hlater now' (List.mem_cons_of_mem _ hnow') t (List.mem_of_mem_drop ht)
              have hrenewed : first.map Target.renewed = (ts.take limit).map Target.renewed := by
                have hmapped := congrArg (List.map Target.renewed) htargets
                rw [List.map_map, List.map_map] at hmapped
                exact hmapped
              have hlength : first.length = limit := by
                have hlengths := congrArg List.length hrenewed
                rw [List.length_map, List.length_map, List.length_take_of_le (by omega)] at hlengths
                exact hlengths
              refine ⟨first :: handed, ?_, ?_, ?_⟩
              · rw [handedOut, hfirst, hhanded, List.map_cons]
              · rw [List.map_cons, hlength, hlengths, hlimits]
              · rw [hlimits, List.sum_cons, List.take_add, List.map_append, List.flatten_cons,
                  List.map_append, hrenewed, hwalked]
          | _ => cases hclaim

/-- **The claims walk the queue.**  Take any calls to a store whose rows can be
read, whoever makes them and in whatever order they come.  If the claims among
them ask in order, none is made to fail, and their moments do not go back as the
store keeps them, then they hand out the queue from its head. -/
theorem claims_walk_the_queue {b : Backend} (hb : b.IsSound) {calls : List StoreCall}
    (horder : b.AsksInOrder calls) (hforward : IsForward ((claimMoments calls).map (b.kept ·)))
    (hfree : b.HandsOut) (hcalls : ∀ call ∈ calls, b.Tells call) :
    b.WalksQueue calls := by
  have hsum := horder.enough
  have hlater := horder.later
  have hlater' : ∀ now ∈ claimMoments calls, ∀ t ∈ b.queue, ∀ past ∈ t.lastClaimedAt,
      compare past (b.kept now) = .lt := by
    intro now hnow t ht past hpast
    have htarget : t ∈ b.targets := by
      have hmem := (List.mergeSort_perm _ _).mem_iff.1 ht
      exact (List.mem_filter.1 hmem).1
    cases hmoments : claimMoments calls with
    | nil =>
        rw [hmoments] at hnow
        cases hnow
    | cons first rest =>
        rw [hmoments] at hnow hforward hlater
        have hfirst := hlater first rfl t htarget past hpast
        rcases List.mem_cons.1 hnow with rfl | hnow
        · exact hfirst
        · have hle := (List.pairwise_cons.1 hforward).1 _ (List.mem_map_of_mem hnow)
          exact Std.TransCmp.lt_of_lt_of_isLE hfirst hle
  obtain ⟨handed, hhanded, hlengths, hwalked⟩ :=
    (upcoming_queue hb hfree).serve hcalls hsum hlater'
  refine ⟨handed, hhanded, hlengths, hwalked, ?_⟩
  have hids : ∀ ts : List Target, ts.map Target.id = (ts.map Target.renewed).map Target.id := by
    intro ts
    rw [List.map_map]
    rfl
  rw [hids, hwalked, ← hids, List.map_take]
  exact (nodup_map_id_queue hb).sublist (List.take_sublist _ _)

/-- A target of a database that was never claimed and one that was a millisecond ago are
claimed one after the other, with a batch between.  The moment of the second claim is earlier
than that of the first, but not in whole milliseconds. -/
theorem claims_walk_the_queue_two_targets :
    ∃ (db : Database) (now now' : Instant) (batch : StoreCall),
      now'.nanos < now.nanos ∧ batch.isRecord ∧
      (Backend.database db).targets.map (·.lastClaimedAt.map Instant.toMillis) =
        [none, some 60000] ∧
      (Backend.database db).AsksInOrder [.claim 1 now, batch, .claim 1 now'] ∧
      (Backend.database db).WalksQueue [.claim 1 now, batch, .claim 1 now'] := by
  let t : Target := .fresh default "peer:1" .ping
  let t' : Target := .fresh ⟨List.replicate 32 1, rfl⟩ "peer:2" .ping
  let row : TargetRow := .ofTarget t
  let row' : TargetRow := (TargetRow.ofTarget t').stamped 60000
  let table : TargetTable :=
    ⟨((∅ : Table _ _).insert row.id row).insert row'.id row', []⟩
  let db : Database := ⟨some table, some ⟨∅, []⟩, [1]⟩
  let now : Instant := ⟨60, 1999999, by decide, by decide⟩
  let now' : Instant := ⟨60, 1000000, by decide, by decide⟩
  let batch : StoreCall := .record [.ofOutcome .nil ⟨default, now, 7, none⟩]
  have ht' : t'.IsFresh := rfl
  have hrow' : (∃ t, row'.decode = .ok t) ∧
      row'.told = t'.claimedAt (some ⟨60, 0, by decide, by decide⟩) :=
    TargetRow.told_stamped_ofTarget ht' (by decide)
  have hsound : (database db).IsSound :=
    ⟨table, rfl, ((TargetTable.isLegible_empty []).insert ⟨t, by rfl⟩).insert hrow'.1⟩
  have htold : row.told = t := by rfl
  have htargets : (database db).targets =
      [t, t'.claimedAt (some ⟨60, 0, by decide, by decide⟩)] := by
    rw [← htold, ← hrow'.2]
    rfl
  have horder : (database db).AsksInOrder [.claim 1 now, batch, .claim 1 now'] := by
    refine ⟨?_, ?_⟩
    · rw [queue, List.length_mergeSort, htargets]
      decide
    · rw [htargets]
      decide
  have hforward : IsForward ((claimMoments [.claim 1 now, batch, .claim 1 now']).map
      ((database db).kept ·)) := List.pairwise_pair.2 (by decide)
  have hfree : (database db).HandsOut := by
    intro table' htable' id
    obtain rfl := Option.some.inj htable'
    rfl
  have htells : ∀ call ∈ [.claim 1 now, batch, .claim 1 now'], (database db).Tells call := by
    intro call hcall
    simp only [List.mem_cons, List.not_mem_nil, or_false] at hcall
    rcases hcall with rfl | rfl | rfl
    · show now.HasMillis
      decide
    · intro r hr _
      rw [List.mem_singleton.1 hr]
      show now.HasMillis
      decide
    · show now'.HasMillis
      decide
  exact ⟨db, now, now', batch, by decide, rfl, by rw [htargets]; decide, horder,
    claims_walk_the_queue hsound horder hforward hfree htells⟩

/-- Moments in whole milliseconds go back at a leap second: then a target is
handed out twice while another waits. -/
theorem handed_out_twice_at_leap_second :
    ∃ (b : Backend) (calls : List StoreCall) (t : Target),
      b.IsSound ∧ b.HandsOut ∧ b.AsksInOrder calls ∧ IsForward (claimMoments calls) ∧
      (∀ call ∈ calls, b.Tells call) ∧
      (handedOut calls b).map (Except.map (List.map Target.renewed)) = [.ok [], .ok [t], .ok [t]] := by
  let other : TargetId := ⟨List.replicate 32 1, rfl⟩
  let t : Target := .fresh default "peer:1" .ping
  let t' : Target := .fresh other "peer:2" .ping
  let now : Instant := ⟨59, 1900000000, by decide, by decide⟩
  let now' : Instant := ⟨60, 0, by decide, by decide⟩
  let row (stamp : Int) : TargetRow := (TargetRow.ofTarget t).stamped stamp
  let row' : TargetRow := (TargetRow.ofTarget t').stamped 60600
  let table (stamp : Int) : TargetTable :=
    ⟨((∅ : Table _ _).insert (row stamp).id (row stamp)).insert row'.id row', []⟩
  let db (stamp : Int) : Database := ⟨some (table stamp), none, [1]⟩
  have ht : t.IsFresh := rfl
  have ht' : t'.IsFresh := rfl
  have hrow : ∀ stamp moment, Instant.ofMillis? stamp = some moment →
      (∃ t, (row stamp).decode = .ok t) ∧ (row stamp).told = t.claimedAt (some moment) :=
    fun _ _ hmoment => TargetRow.told_stamped_ofTarget ht hmoment
  have hrow' : (∃ t, row'.decode = .ok t) ∧
      row'.told = t'.claimedAt (some ⟨60, 600000000, by decide, by decide⟩) :=
    TargetRow.told_stamped_ofTarget ht' (by decide)
  have hlegible : ∀ stamp moment, Instant.ofMillis? stamp = some moment →
      (table stamp).IsLegible := fun stamp moment hmoment =>
    ((TargetTable.isLegible_empty []).insert (hrow stamp moment hmoment).1).insert hrow'.1
  have hqueue : ∀ stamp moment, Instant.ofMillis? stamp = some moment → stamp < 60600 →
      (table stamp).queue = [row stamp, row'] := by
    intro stamp moment hmoment hlt
    refine databaseRoster.queue_eq_of_perm (hlegible stamp moment hmoment).keyed (.refl _) ?_
    refine List.pairwise_pair.2 (databaseRoster.before_of_claimed_lt rfl ?_).1
    intro past hpast
    obtain rfl := Option.some.inj hpast
    exact Int.compare_eq_lt.2 hlt
  -- whatever the earlier stamp of the first row was, a claim at `now'` leaves the same
  have hclaim : ∀ stamp moment, Instant.ofMillis? stamp = some moment → stamp < 60600 →
      (database (db stamp)).claim 1 now' = (.database (db 60000), .ok [t.claimedAt (some now')]) := by
    intro stamp moment hmoment hlt
    have hrows := hqueue stamp moment hmoment hlt
    have hmillis : now'.toMillis = 60000 := by decide
    have hnext : (db stamp).claimed (table stamp) 1 now'.toMillis = db 60000 := by
      rw [TargetTable.queue_eq] at hrows
      unfold Database.claimed Roster.claim
      rw [hrows, hmillis]
      rfl
    have hnow' : Instant.ofMillis? now'.toMillis = some now' := by decide
    have haccepted := Database.claim_of_accepted (rfl : (db stamp).targets = some (table stamp))
      (hlegible stamp moment hmoment) (fun _ => rfl) hnow' 1
    rw [hnext, hrows, List.take_succ_cons, List.take_zero, List.map_singleton,
      (hrow stamp moment hmoment).2] at haccepted
    rw [claim_database, haccepted]
    rfl
  have hfirst : Instant.ofMillis? 60500 = some ⟨60, 500000000, by decide, by decide⟩ := by decide
  have hagain : Instant.ofMillis? 60000 = some now' := by decide
  have hfree : (database (db 60500)).HandsOut := by
    intro table' htable' id
    obtain rfl := Option.some.inj htable'
    rfl
  have horder : (database (db 60500)).AsksInOrder
      [.claim 0 now, .claim 1 now', .claim 1 now'] := by
    have htargets : (database (db 60500)).targets = [(row 60500).told, row'.told] := rfl
    refine ⟨?_, ?_⟩
    · rw [queue_database rfl (hlegible _ _ hfirst), ← TargetTable.queue_eq,
        hqueue _ _ hfirst (by decide)]
      decide
    · rw [htargets, (hrow _ _ hfirst).2, hrow'.2]
      decide
  have htells : ∀ call ∈ [.claim 0 now, .claim 1 now', .claim 1 now'],
      (database (db 60500)).Tells call := by
    intro call hcall
    simp only [List.mem_cons, List.not_mem_nil, or_false] at hcall
    rcases hcall with rfl | rfl | rfl
    · show now.HasMillis
      decide
    · show now'.HasMillis
      decide
    · show now'.HasMillis
      decide
  have hforward : IsForward (claimMoments [.claim 0 now, .claim 1 now', .claim 1 now']) := by
    show List.Pairwise _ [now, now', now']
    decide
  refine ⟨.database (db 60500), _, t, ⟨_, rfl, hlegible _ _ hfirst⟩, hfree, horder, hforward,
    htells, ?_⟩
  have hnothing : (database (db 60500)).claim 0 now = (.database (db 60500), .ok []) := rfl
  simp only [handedOut, hnothing, hclaim _ _ hfirst (by decide), hclaim _ _ hagain (by decide)]
  rfl

/-- A claim that fails does not walk the queue. -/
theorem not_walksQueue_of_error {calls : List StoreCall} {e : StoreError}
    (h : .error e ∈ handedOut calls b) : ¬ b.WalksQueue calls := by
  intro hwalks
  obtain ⟨handed, hhanded, _⟩ := hwalks
  rw [hhanded] at h
  obtain ⟨ts, _, heq⟩ := List.mem_map.1 h
  cases heq

/-- **What the walk needs.**  A claim that is made to fail does not walk the
queue, nor does a claim from a database at the leap second which ends the
calendar; and where milliseconds go back, a target is handed out twice. -/
theorem claims_leave_the_queue :
    (∃ b calls, IsSound b ∧ b.AsksInOrder calls ∧ IsForward (claimMoments calls) ∧
      (∀ call ∈ calls, b.Tells call) ∧ ¬ b.WalksQueue calls) ∧
    (∃ b calls, IsSound b ∧ b.AsksInOrder calls ∧ IsForward (claimMoments calls) ∧
      b.HandsOut ∧ ¬ b.WalksQueue calls) ∧
    (∃ b calls, IsSound b ∧ b.AsksInOrder calls ∧ IsForward (claimMoments calls) ∧
      b.HandsOut ∧ (∀ call ∈ calls, b.Tells call) ∧ ¬ b.WalksQueue calls) := by
  refine ⟨?_, ?_, ?_⟩
  · let l : Ledger := { Ledger.empty.put (.fresh default "peer:1" .ping) with faultyClaim := true }
    have hfailed : .error (.unavailable .claimAborted) ∈ handedOut [.claim 1 default] (.ledger l) :=
      List.mem_singleton.2 rfl
    refine ⟨.ledger l, [.claim 1 default], Table.Keyed.empty.insert rfl, ⟨?_, by decide⟩,
      List.pairwise_singleton _ _, fun _ _ => trivial, not_walksQueue_of_error hfailed⟩
    rw [queue, List.length_mergeSort]
    decide
  · let row : TargetRow := .ofTarget (.fresh default "peer:1" .ping)
    let table : TargetTable := ⟨(∅ : Table _ _).insert row.id row, []⟩
    let b : Backend := .database ⟨some table, none, [1]⟩
    let last : Instant := ⟨8210266876799, 1500000000, by decide, by decide⟩
    have hlegible : table.IsLegible :=
      (TargetTable.isLegible_empty []).insert ⟨.fresh default "peer:1" .ping, by rfl⟩
    have hlast : decodeMillis last.toMillis = .error (.corrupt (.timestamp last.toMillis)) := by
      have hnone : Instant.ofMillis? last.toMillis = none := by decide
      unfold decodeMillis
      rw [hnone]
    have hclaim := @Database.claim_eq ⟨some table, none, [1]⟩ table rfl hlegible 1 Nat.one_ne_zero last
    unfold Database.claimOf at hclaim
    rw [hlast] at hclaim
    have hfailed : .error (.corrupt (.timestamp last.toMillis)) ∈ handedOut [.claim 1 last] b := by
      rw [handedOut, claim_database, hclaim]
      exact List.mem_cons_self
    have hfree : b.HandsOut := by
      intro table' htable' id
      obtain rfl := Option.some.inj htable'
      rfl
    refine ⟨b, [.claim 1 last], ⟨table, rfl, hlegible⟩, ⟨?_, by decide⟩,
      List.pairwise_singleton _ _, hfree, not_walksQueue_of_error hfailed⟩
    rw [queue, List.length_mergeSort]
    decide
  · obtain ⟨b, calls, t, hsound, hfree, horder, hforward, htells, hanswers⟩ :=
      handed_out_twice_at_leap_second
    refine ⟨b, calls, hsound, horder, hforward, hfree, htells, ?_⟩
    intro hwalks
    obtain ⟨handed, hhanded, _, _, hnodup⟩ := hwalks
    have hrenewed : handed.map (List.map Target.renewed) = [[], [t], [t]] := by
      rw [hhanded, List.map_map] at hanswers
      have hok : ∀ ts ts' : List Target,
          (Except.ok ts : Except StoreError (List Target)) = .ok ts' → ts = ts' :=
        fun _ _ heq => Except.ok.inj heq
      refine (List.map_inj_right hok).1 ?_
      rw [List.map_map]
      exact hanswers
    have hids : handed.flatten.map Target.id = [t.id, t.id] := by
      have hflat := congrArg (fun ts => ts.flatten.map Target.id) hrenewed
      rw [← List.map_flatten, List.map_map] at hflat
      exact hflat
    rw [hids] at hnodup
    exact (List.nodup_cons.1 hnodup).1 List.mem_cons_self

end Runs

end Backend

end PeerWatch
