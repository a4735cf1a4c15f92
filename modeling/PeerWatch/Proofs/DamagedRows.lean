import PeerWatch.Proofs.UntamperedTables

/-!
# Claims of damaged rows

Other hands may leave values in the table of targets that tell nothing.  A claim reads
all rows that it would take before it stamps the first of them, and no others: if one
of them is damaged it fails, and if one refuses its stamp, it fails for that, and no
row is stamped.  Rows that stand behind those it would take may be as they like.

* `TargetRow.IsDamaged`, `TargetRow.isDamaged_iff` — rows that cannot be read;
* `TargetTable.Takes` — the rows that a claim would take;
* `Database.claim_fails_for_the_rows_it_would_take`.
-/

namespace PeerWatch

open Calendar

/-- The milliseconds of moments are those of the days of the calendar. -/
theorem Calendar.Instant.isSome_ofMillis?_iff {ms : Int} :
    (ofMillis? ms).isSome ↔ -8334601228800000 ≤ ms ∧ ms ≤ 8210266876799999 := by
  unfold ofMillis? firstNumber lastNumber secondsPerDay
  split
  · next hday =>
      simp only [Option.isSome_some, true_iff]
      omega
  · next hday =>
      simp only [Option.isSome_none, Bool.false_eq_true, false_iff]
      omega

namespace TargetRow

variable {row : TargetRow}

/-- A value of the row tells nothing: its identity has not 32 bytes, its mode is none,
one of its moments is outside of the calendar, or its latency does not fit 32 bits. -/
def IsDamaged (row : TargetRow) : Prop :=
  row.id.length ≠ 32 ∨ row.mode ∉ ["off", "dial", "ping"] ∨
    (∃ ms ∈ row.lastClaimedAt, ms < -8334601228800000 ∨ 8210266876799999 < ms) ∨
    (∃ ms ∈ row.lastSuccessAt, ms < -8334601228800000 ∨ 8210266876799999 < ms) ∨
    ∃ ms ∈ row.lastLatency, ms < 0 ∨ 4294967295 < ms

/-- A row makes sense if it is not damaged. -/
theorem makesSense_iff : row.MakesSense ↔ ¬ row.IsDamaged := by
  have hmode : (∃ mode : ProbeMode, row.mode = mode.name) ↔ row.mode ∈ ["off", "dial", "ping"] := by
    constructor
    · intro hsome
      obtain ⟨mode, hname⟩ := hsome
      rw [hname]
      cases mode <;> decide
    · intro hmem
      simp only [List.mem_cons, List.not_mem_nil, or_false] at hmem
      rcases hmem with hname | hname | hname
      · exact ⟨.off, hname⟩
      · exact ⟨.dial, hname⟩
      · exact ⟨.ping, hname⟩
  have hmoment : ∀ ms? : Option Int, (∀ ms ∈ ms?, (Instant.ofMillis? ms).isSome) ↔
      ¬ ∃ ms ∈ ms?, ms < -8334601228800000 ∨ 8210266876799999 < ms := by
    intro ms?
    simp only [Instant.isSome_ofMillis?_iff, not_exists, not_and, not_or]
    exact forall₂_congr fun ms _ => by omega
  have hlatency : (∀ ms ∈ row.lastLatency, 0 ≤ ms ∧ ms < 4294967296) ↔
      ¬ ∃ ms ∈ row.lastLatency, ms < 0 ∨ 4294967295 < ms := by
    simp only [not_exists, not_and, not_or]
    exact forall₂_congr fun ms _ => by omega
  simp only [IsDamaged, not_or, not_not, ← hmoment, ← hlatency, ← hmode]
  constructor
  · intro h
    exact ⟨h.id, h.mode, h.claimed, h.success, h.latency⟩
  · intro h
    exact ⟨h.1, h.2.1, h.2.2.1, h.2.2.2.1, h.2.2.2.2⟩

/-- A row is read if each of its values makes sense. -/
theorem decode_of_makesSense (h : row.MakesSense) : ∃ t, row.decode = .ok t := by
  have hmoment : ∀ ms? : Option Int, (∀ ms ∈ ms?, (Instant.ofMillis? ms).isSome) →
      ∃ moment?, decodeOptional decodeMillis ms? = .ok moment? := by
    intro ms? hms
    cases ms? with
    | none => exact ⟨none, rfl⟩
    | some ms =>
        obtain ⟨moment, hmoment⟩ := Option.isSome_iff_exists.1 (hms ms rfl)
        refine ⟨some moment, ?_⟩
        rw [decodeOptional, decodeMillis_eq_ok_iff.2 hmoment]
        rfl
  have hlatency : ∃ latency?, decodeOptional (decodeLatency ⟨row.id, h.id⟩) row.lastLatency =
      .ok latency? := by
    cases hms : row.lastLatency with
    | none => exact ⟨none, rfl⟩
    | some ms =>
        refine ⟨some (UInt32.ofNat ms.toNat), ?_⟩
        rw [decodeOptional, decodeLatency, if_pos (h.latency ms hms)]
        rfl
  obtain ⟨mode, hmode⟩ := h.mode
  obtain ⟨claimed, hclaimed⟩ := hmoment _ h.claimed
  obtain ⟨success, hsuccess⟩ := hmoment _ h.success
  obtain ⟨latency, hlatency⟩ := hlatency
  exact ⟨⟨⟨row.id, h.id⟩, row.address, mode, claimed, success, latency,
    row.lastProbeOk.map (fun v => decide (v ≠ 0))⟩,
    decode_eq_ok_iff.2 ⟨rfl, rfl, hmode.symm, hclaimed, hsuccess, hlatency, rfl⟩⟩

/-- Damaged rows are those that read as no target. -/
theorem isDamaged_iff : row.IsDamaged ↔ ¬ ∃ t, row.decode = .ok t := by
  rw [← not_iff_not, not_not, ← makesSense_iff]
  exact ⟨decode_of_makesSense, makesSense_of_decode⟩

/-- Whatever is in a column, it is read or found corrupt. -/
theorem corrupt_of_decodeOptional {α : Type} {decode : Int → Except StoreError α}
    (hdecode : ∀ ms e, decode ms = .error e → ∃ corruption, e = .corrupt corruption)
    {ms? : Option Int} {e : StoreError} (h : decodeOptional decode ms? = .error e) :
    ∃ corruption, e = .corrupt corruption := by
  cases ms? with
  | none => cases h
  | some ms =>
      rw [decodeOptional] at h
      cases hms : decode ms with
      | ok v =>
          rw [hms] at h
          cases h
      | error e' =>
          rw [hms] at h
          obtain rfl : e' = e := Except.error.inj h
          exact hdecode ms e' hms

/-- Whatever is in a row, it is read or found corrupt. -/
theorem corrupt_of_decode {e : StoreError} (h : row.decode = .error e) :
    ∃ corruption, e = .corrupt corruption := by
  have hmoment : ∀ ms e, decodeMillis ms = .error e → ∃ corruption, e = .corrupt corruption := by
    intro ms e he
    unfold decodeMillis at he
    split at he
    · cases he
    · exact ⟨_, (Except.error.inj he).symm⟩
  have hlatency : ∀ id ms e, decodeLatency id ms = .error e →
      ∃ corruption, e = .corrupt corruption := by
    intro id ms e he
    unfold decodeLatency at he
    split at he
    · cases he
    · exact ⟨_, (Except.error.inj he).symm⟩
  unfold decode at h
  split at h
  · exact ⟨_, (Except.error.inj h).symm⟩
  · next id hid =>
      split at h
      · exact ⟨_, (Except.error.inj h).symm⟩
      · cases hclaimed : decodeOptional decodeMillis row.lastClaimedAt with
        | error e' =>
            rw [hclaimed] at h
            exact Except.error.inj h ▸ corrupt_of_decodeOptional hmoment hclaimed
        | ok claimed =>
            cases hsuccess : decodeOptional decodeMillis row.lastSuccessAt with
            | error e' =>
                rw [hclaimed, hsuccess] at h
                exact Except.error.inj h ▸ corrupt_of_decodeOptional hmoment hsuccess
            | ok success =>
                cases hms : decodeOptional (decodeLatency id) row.lastLatency with
                | error e' =>
                    rw [hclaimed, hsuccess, hms] at h
                    exact Except.error.inj h ▸ corrupt_of_decodeOptional (hlatency id) hms
                | ok latency =>
                    rw [hclaimed, hsuccess, hms] at h
                    cases h

end TargetRow

/-- Rows of which one is damaged are found corrupt. -/
theorem decodeRows_of_damaged {rows : List TargetRow} (h : ∃ row ∈ rows, row.IsDamaged) :
    ∃ corruption, decodeRows rows = .error (.corrupt corruption) := by
  induction rows with
  | nil =>
      obtain ⟨row, hrow, _⟩ := h
      cases hrow
  | cons row rest ih =>
      rw [decodeRows]
      cases hrow : row.decode with
      | error e =>
          obtain ⟨corruption, rfl⟩ := TargetRow.corrupt_of_decode hrow
          exact ⟨corruption, rfl⟩
      | ok t =>
          have hrest : ∃ row ∈ rest, row.IsDamaged := by
            obtain ⟨row', hrow', hdamaged⟩ := h
            rcases List.mem_cons.1 hrow' with rfl | hrow'
            · exact absurd ⟨t, hrow⟩ (TargetRow.isDamaged_iff.1 hdamaged)
            · exact ⟨row', hrow', hdamaged⟩
          obtain ⟨corruption, hcorrupt⟩ := ih hrest
          refine ⟨corruption, ?_⟩
          dsimp only
          rw [hcorrupt]
          rfl

/-- Some rows are the first so many of those that are to be probed, in the order of
their last claims and of their identities. -/
def TargetTable.Takes (table : TargetTable) (limit : Nat) (first : List TargetRow) : Prop :=
  ∃ rest, (first ++ rest).Perm (table.rows.values.filter (·.mode ≠ "off")) ∧
    (first ++ rest).Pairwise (fun a b => staleRow a b) ∧
    first.length = min limit (first ++ rest).length

/-- These are the head of the queue. -/
theorem TargetTable.takes_iff {table : TargetTable} (hkeyed : table.rows.Keyed TargetRow.id)
    {limit : Nat} {first : List TargetRow} :
    table.Takes limit first ↔ first = table.queue.take limit := by
  constructor
  · intro h
    obtain ⟨rest, hperm, hordered, hlength⟩ := h
    have hqueue : table.queue = first ++ rest :=
      databaseRoster.queue_eq_of_perm hkeyed hperm hordered
    rw [List.length_append] at hlength
    have hfirst : first.take limit = first := List.take_of_length_le (by omega)
    have hrest : rest.take (limit - first.length) = [] := by
      rw [List.take_eq_nil_iff, ← List.length_eq_zero_iff]
      omega
    rw [hqueue, List.take_append, hfirst, hrest, List.append_nil]
  · intro h
    refine ⟨table.queue.drop limit, ?_⟩
    rw [h, List.take_append_drop, List.length_take]
    exact ⟨databaseRoster.queue_perm table.rows, databaseRoster.pairwise_queue table.rows, rfl⟩

namespace Database

/-- The table of targets is there, every row under its identity, and a claim of at least
one target, for which there can be room, comes at a moment in no leap second. -/
structure CanClaim (db : Database) (table : TargetTable) (limit : Nat) (now : Instant) : Prop where
  there : db.targets = some table
  keyed : table.rows.Keyed TargetRow.id
  positive : 1 ≤ limit
  room : limit ≤ claimBound
  moment : now.isLeapSecond = false

namespace CanClaim

variable {db : Database} {table : TargetTable} {limit : Nat} {now : Instant}
  {first : List TargetRow}

/-- If they cannot be read, it says so. -/
theorem claim_of_corrupt (h : db.CanClaim table limit now) (hfirst : table.Takes limit first)
    {e : StoreError} (hrows : decodeRows first = .error e) :
    db.claim limit now = (db, .error e) := by
  obtain rfl := (TargetTable.takes_iff h.keyed).1 hfirst
  exact claim_of_unreadable h.there (Nat.one_le_iff_ne_zero.1 h.positive)
    (Instant.hasMillis_of_not_leap h.moment) hrows

/-- If they can, it is decided by refusals. -/
theorem claim_of_undamaged (h : db.CanClaim table limit now) (hfirst : table.Takes limit first)
    (hread : ∀ row ∈ first, ¬ row.IsDamaged) :
    ((∃ row ∈ first, table.refuses .claim row.id) →
      db.claim limit now = (db, .error (.unavailable .rejected))) ∧
    ((∀ row ∈ first, table.refuses .claim row.id = false) →
      db.claim limit now = (db.claimed table limit now.toMillis,
        .ok (first.map fun row => row.told.claimedAt (some now.floorMillis)))) := by
  obtain rfl := (TargetTable.takes_iff h.keyed).1 hfirst
  have hdecode : ∀ row ∈ table.queue.take limit, ∃ t, row.decode = .ok t := fun row hrow =>
    not_not.1 (mt TargetRow.isDamaged_iff.2 (hread row hrow))
  rw [claim_eq_of_read h.there (Nat.one_le_iff_ne_zero.1 h.positive) hdecode, claimOf,
    decodeMillis_eq_ok_iff.2 (Instant.ofMillis?_toMillis h.moment)]
  constructor
  · intro hrefused
    exact if_pos (List.any_eq_true.2 hrefused)
  · intro hfree
    refine if_neg fun hany => ?_
    obtain ⟨row, hrow, hrefused⟩ := List.any_eq_true.1 hany
    rw [hfree row hrow] at hrefused
    cases hrefused

/-- The rows with those it takes stamped. -/
theorem claimed_eq (h : db.CanClaim table limit now) (hfirst : table.Takes limit first)
    (stamp : Int) :
    db.claimed table limit stamp =
      { db with targets := some { table with rows := table.rows.mapValues fun _ row =>
          if row ∈ first then { row with lastClaimedAt := some stamp } else row } } := by
  obtain rfl := (TargetTable.takes_iff h.keyed).1 hfirst
  have hrows : databaseRoster.claim limit stamp table.rows = table.rows.mapValues fun _ row =>
      if row ∈ table.queue.take limit then { row with lastClaimedAt := some stamp } else row := by
    refine Table.ext_find? fun key => ?_
    rw [Roster.claim, Table.find?_mapValues, Table.find?_mapValues]
    refine Option.map_congr fun row hrow => ?_
    -- under one key there is one row
    have hmem : key ∈ ((databaseRoster.queue table.rows).take limit).map databaseRoster.key ↔
        row ∈ table.queue.take limit := by
      constructor
      · intro hkey
        obtain ⟨row', hrow', rfl⟩ := List.mem_map.1 hkey
        have hfound := ((databaseRoster.mem_queue_iff h.keyed).1 (List.mem_of_mem_take hrow')).1
        obtain rfl : row = row' := Option.some.inj (hrow.symm.trans hfound)
        exact hrow'
      · intro hrow'
        exact List.mem_map.2 ⟨row, hrow', h.keyed key row hrow⟩
    by_cases hrow' : row ∈ table.queue.take limit
    · rw [if_pos (hmem.2 hrow'), if_pos hrow']
      rfl
    · rw [if_neg (mt hmem.1 hrow'), if_neg hrow']
  rw [claimed, hrows]

end CanClaim

/-- **A claim fails for the rows it would take,** and for no others.  If one of them is
damaged, it finds that; if none is and one refuses its stamp, it is rejected; and both
leave the tables as they are.  Otherwise these rows are stamped and no others, and the
targets they tell of are handed out with the stamp.  So a claim answers the same from
any two tables from which it would take the same rows, whatever stands behind them. -/
theorem claim_fails_for_the_rows_it_would_take {db : Database} {table : TargetTable} {limit : Nat}
    {now : Instant} (h : db.CanClaim table limit now) :
    ∃ first, table.Takes limit first ∧ (∀ other, table.Takes limit other → other = first) ∧
      ((∃ row ∈ first, row.IsDamaged) →
        ∃ corruption, db.claim limit now = (db, .error (.corrupt corruption))) ∧
      ((∀ row ∈ first, ¬ row.IsDamaged) → (∃ row ∈ first, table.refuses .claim row.id) →
        db.claim limit now = (db, .error (.unavailable .rejected))) ∧
      ((∀ row ∈ first, ¬ row.IsDamaged ∧ table.refuses .claim row.id = false) →
        db.claim limit now =
          ({ db with targets := some { table with rows := table.rows.mapValues fun _ row =>
              if row ∈ first then { row with lastClaimedAt := some now.toMillis } else row } },
            .ok (first.map fun row => row.told.claimedAt (some now.floorMillis)))) ∧
      ∀ (db' : Database) (table' : TargetTable), db'.CanClaim table' limit now →
        table'.Takes limit first →
        (∀ row ∈ first, table'.refuses .claim row.id = table.refuses .claim row.id) →
        (db'.claim limit now).2 = (db.claim limit now).2 := by
  let first := table.queue.take limit
  have hfirst : table.Takes limit first := (TargetTable.takes_iff h.keyed).2 rfl
  refine ⟨first, hfirst, fun other hother => (TargetTable.takes_iff h.keyed).1 hother,
    ?damaged, ?refused, ?free, ?same⟩
  case damaged =>
    intro hdamaged
    obtain ⟨corruption, hrows⟩ := decodeRows_of_damaged hdamaged
    exact ⟨corruption, h.claim_of_corrupt hfirst hrows⟩
  case refused =>
    intro hread hrefused
    exact (h.claim_of_undamaged hfirst hread).1 hrefused
  case free =>
    intro hfree
    have hread : ∀ row ∈ first, ¬ row.IsDamaged := fun row hrow => (hfree row hrow).1
    rw [← h.claimed_eq hfirst]
    exact (h.claim_of_undamaged hfirst hread).2 fun row hrow => (hfree row hrow).2
  case same =>
    intro db' table' h' hfirst' hsame
    by_cases hdamaged : ∃ row ∈ first, row.IsDamaged
    · obtain ⟨corruption, hrows⟩ := decodeRows_of_damaged hdamaged
      rw [h.claim_of_corrupt hfirst hrows, h'.claim_of_corrupt hfirst' hrows]
    · have hread : ∀ row ∈ first, ¬ row.IsDamaged := fun row hrow hrow' =>
        hdamaged ⟨row, hrow, hrow'⟩
      have hclaim := h.claim_of_undamaged hfirst hread
      have hclaim' := h'.claim_of_undamaged hfirst' hread
      by_cases hrefused : ∃ row ∈ first, table.refuses .claim row.id
      · obtain ⟨row, hrow, hrefuses⟩ := hrefused
        rw [hclaim.1 ⟨row, hrow, hrefuses⟩, hclaim'.1 ⟨row, hrow, (hsame row hrow).trans hrefuses⟩]
      · have hfree : ∀ row ∈ first, table.refuses .claim row.id = false := fun row hrow =>
          Bool.eq_false_iff.2 fun hrefuses => hrefused ⟨row, hrow, hrefuses⟩
        rw [hclaim.2 hfree, hclaim'.2 fun row hrow => (hsame row hrow).trans (hfree row hrow)]

/-- Three rows are in the queue: one that nothing hinders, one that refuses its stamp, and
one with an identity of one byte.  What becomes of a claim is a matter of its limit. -/
theorem claim_fails_for_the_rows_it_would_take_one_by_one :
    ∃ (db : Database) (table : TargetTable) (fine refusing damaged : TargetRow),
      (∀ limit, 1 ≤ limit → limit ≤ 3 → db.CanClaim table limit default) ∧
      table.Takes 3 [fine, refusing, damaged] ∧ damaged.id = [7] ∧
      (db.claim 1 default).2 = .ok [fine.told.claimedAt (some default)] ∧
      db.claim 2 default = (db, .error (.unavailable .rejected)) ∧
      ∃ corruption, db.claim 3 default = (db, .error (.corrupt corruption)) := by
  let fine : TargetRow := .ofTarget (.fresh default "peer:1" .ping)
  let refusing : TargetRow :=
    (TargetRow.ofTarget (.fresh ⟨List.replicate 32 1, rfl⟩ "peer:2" .dial)).stamped 0
  let damaged : TargetRow := ⟨[7], "peer:3", "ping", some 1, none, none, none⟩
  let table : TargetTable :=
    ⟨(((∅ : Table _ _).insert fine.id fine).insert refusing.id refusing).insert damaged.id damaged,
      [(.claim, refusing.id)]⟩
  let db : Database := ⟨some table, some ⟨∅, []⟩, [1]⟩
  have hkeyed : table.rows.Keyed TargetRow.id :=
    ((Table.Keyed.empty.insert rfl).insert rfl).insert rfl
  have hcan : ∀ limit, 1 ≤ limit → limit ≤ 3 → db.CanClaim table limit default := by
    intro limit hpositive hlimit
    exact ⟨rfl, hkeyed, hpositive, le_trans hlimit (by decide), rfl⟩
  have htakes : ∀ limit, 1 ≤ limit → limit ≤ 3 →
      table.Takes limit ([fine, refusing, damaged].take limit) := by
    intro limit hpositive hlimit
    refine ⟨[fine, refusing, damaged].drop limit, ?_⟩
    rw [List.take_append_drop, List.length_take]
    exact ⟨by decide +kernel, by decide +kernel, rfl⟩
  have hread : ∀ row ∈ [fine, refusing], ¬ row.IsDamaged := by
    intro row hrow
    rw [TargetRow.isDamaged_iff, not_not]
    rcases List.mem_cons.1 hrow with rfl | hrow
    · exact ⟨_, by rfl⟩
    · obtain rfl := List.mem_singleton.1 hrow
      exact ⟨_, by rfl⟩
  refine ⟨db, table, fine, refusing, damaged, hcan, htakes 3 (by decide) (by decide), rfl,
    ?one, ?two, ?three⟩
  case one =>
    obtain ⟨first, -, hunique, -, -, hfree, -⟩ :=
      claim_fails_for_the_rows_it_would_take (hcan 1 (by decide) (by decide))
    obtain rfl := hunique _ (htakes 1 (by decide) (by decide))
    have hone : ∀ row ∈ [fine], ¬ row.IsDamaged ∧ table.refuses .claim row.id = false := by
      intro row hrow
      obtain rfl := List.mem_singleton.1 hrow
      exact ⟨hread _ List.mem_cons_self, by decide +kernel⟩
    rw [hfree hone]
    rfl
  case two =>
    obtain ⟨first, -, hunique, -, hrefused, -⟩ :=
      claim_fails_for_the_rows_it_would_take (hcan 2 (by decide) (by decide))
    obtain rfl := hunique _ (htakes 2 (by decide) (by decide))
    exact hrefused hread ⟨refusing, by simp, by decide +kernel⟩
  case three =>
    obtain ⟨first, -, hunique, hdamaged, -⟩ :=
      claim_fails_for_the_rows_it_would_take (hcan 3 (by decide) (by decide))
    obtain rfl := hunique _ (htakes 3 (by decide) (by decide))
    exact hdamaged ⟨damaged, by simp, .inl (by decide)⟩

end Database

end PeerWatch
