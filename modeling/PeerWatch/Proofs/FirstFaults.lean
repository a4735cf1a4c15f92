import PeerWatch.Proofs.Databases
import PeerWatch.Proofs.Ledgers

/-!
# Where a batch fails

What is in the tables can stop a record: its target has a row that refuses to note
the outcome, or the row of its day has a length that no day has.  The records
before it cannot change that, since they leave the refusals as they are and write
whole days.  So a batch fails at the first of its records that is stopped, whatever
comes after it, and a ledger fails at the row that was made to.

* `Database.obstacle?` — what stops a record;
* `Database.obstacle?_enter` — a record that is entered makes no obstacle and
  clears none;
* `Database.acceptsAll_iff`, `Database.record_of_obstacle` — batches;
* `Ledger.Draft.applyAll_some` — the row that is to fail;
* `batches_fail_at_the_first_inapplicable_record`.
-/

namespace PeerWatch

namespace Database

variable {db : Database} {r : OutcomeRecord}

section Obstacles

/-- Whether the target of an outcome has a row that refuses to note it. -/
def refusesOutcome (db : Database) (o : Outcome) : Bool :=
  db.targets.any fun table =>
    table.rows.contains o.target.bytes && table.refuses .outcome o.target.bytes

/-- Whether the rows of a day's target may not be written. -/
def refusesDay (db : Database) (key : HistoryKey) : Bool :=
  db.history.any fun table => table.refuses key.target.bytes

/-- The length of the row of a day, if no day has that length. -/
def misfit? (db : Database) (key : HistoryKey) : Option Nat :=
  ((db.sheets.history.find? (HistoryRowKey.ofKey key)).map List.length).filter (· ≠ 2880)

/-- What keeps a slot from being written. -/
def slotObstacle? (db : Database) (key : HistoryKey) : Option StoreError :=
  match db.misfit? key with
  | some length => some (.corrupt (.blobLength key length))
  | none => if db.refusesDay key then some (.unavailable .rejected) else none

/-- What stops a record: its outcome is noted first, and then its slot written. -/
def obstacle? (db : Database) (r : OutcomeRecord) : Option StoreError :=
  if db.refusesOutcome r.outcome then some (.unavailable .rejected)
  else db.slotObstacle? r.slot.key

/-- A row that is no misfit can be read, and no other. -/
theorem misfit?_eq_none_iff {key : HistoryKey} :
    db.misfit? key = none ↔ ∀ blob, db.sheets.history.find? (HistoryRowKey.ofKey key) = some blob →
      (DayHistory.ofBlob? key blob).isSome := by
  unfold misfit?
  cases db.sheets.history.find? (HistoryRowKey.ofKey key) with
  | none => simp
  | some blob =>
      simp only [Option.map_some, Option.filter_eq_none_iff, Option.some.injEq, forall_eq',
        DayHistory.isSome_ofBlob?_iff, decide_eq_true_eq, not_not]
      rfl

/-- A slot meets nothing where its row fits and its day is not refused. -/
theorem slotObstacle?_eq_none_iff {key : HistoryKey} :
    db.slotObstacle? key = none ↔ db.misfit? key = none ∧ db.refusesDay key = false := by
  unfold slotObstacle?
  cases db.misfit? key <;> simp

/-- A record meets nothing where neither its outcome nor its slot does. -/
theorem obstacle?_eq_none_iff :
    db.obstacle? r = none ↔
      db.refusesOutcome r.outcome = false ∧ db.slotObstacle? r.slot.key = none := by
  unfold obstacle?
  cases db.refusesOutcome r.outcome <;> simp

/-- A record is accepted if nothing stops it. -/
theorem accepts_iff (htables : db.HasTables) : db.Accepts r ↔ db.obstacle? r = none := by
  obtain ⟨table, htable⟩ := Option.isSome_iff_exists.1 htables.1
  obtain ⟨days, hdays⟩ := Option.isSome_iff_exists.1 htables.2
  have houtcome : db.AcceptsOutcome r.outcome ↔ db.refusesOutcome r.outcome = false := by
    simp [AcceptsOutcome, refusesOutcome, htable]
  have hslot : db.AcceptsSlot r.slot ↔ db.slotObstacle? r.slot.key = none := by
    rw [slotObstacle?_eq_none_iff, misfit?_eq_none_iff, sheets_history hdays]
    simp [AcceptsSlot, refusesDay, hdays, and_comm]
  rw [Accepts, houtcome, hslot, obstacle?_eq_none_iff]

/-- An outcome is not noted if its target refuses it. -/
theorem effect_noteOutcome_of_refuses {o : Outcome} (h : db.refusesOutcome o) :
    effect (noteOutcome o) db = (.error (.unavailable .rejected), db) := by
  unfold refusesOutcome at h
  cases htable : db.targets with
  | none =>
      rw [htable] at h
      cases h
  | some table =>
      rw [htable, Option.any_some, Bool.and_eq_true] at h
      rw [effect_noteOutcome htable, if_pos h]

/-- A slot is not written if something keeps it from that. -/
theorem effect_writeSlot_of_obstacle {table : HistoryTable} (h : db.history = some table)
    {w : SlotWrite} {e : StoreError} (hobstacle : db.slotObstacle? w.key = some e) :
    effect (writeSlot w) db = (.error e, db) := by
  have hrows : db.sheets.history = table.rows := sheets_history h
  rw [effect_writeSlot h, ← hrows]
  unfold slotObstacle? at hobstacle
  cases hmisfit : db.misfit? w.key with
  | some length =>
      rw [hmisfit] at hobstacle
      obtain rfl := Option.some.inj hobstacle
      obtain ⟨hblob, hlength⟩ := Option.filter_eq_some_iff.1 hmisfit
      obtain ⟨blob, hfound, rfl⟩ := Option.map_eq_some_iff.1 hblob
      have hunread : DayHistory.ofBlob? w.key blob = none := by
        rw [← Option.not_isSome_iff_eq_none, DayHistory.isSome_ofBlob?_iff]
        exact of_decide_eq_true hlength
      rw [hfound, Option.map_some, decodeBlob, hunread]
  | none =>
      rw [hmisfit] at hobstacle
      have hrefused : table.refuses w.key.target.bytes := by
        by_contra hfree
        simp [refusesDay, h, hfree] at hobstacle
      obtain rfl : .unavailable .rejected = e := by
        simpa [refusesDay, h, hrefused] using hobstacle
      cases hfound : db.sheets.history.find? (HistoryRowKey.ofKey w.key) with
      | none => rw [Option.map_none, if_pos hrefused]
      | some blob =>
          obtain ⟨row, hrow⟩ :=
            Option.isSome_iff_exists.1 (misfit?_eq_none_iff.1 hmisfit blob hfound)
          rw [Option.map_some, decodeBlob, hrow]
          exact if_pos hrefused

/-- Noting an outcome leaves what keeps slots from being written. -/
theorem slotObstacle?_noted (o : Outcome) (key : HistoryKey) :
    (db.noted o).slotObstacle? key = db.slotObstacle? key := by
  unfold slotObstacle? misfit? refusesDay sheets
  rw [history_noted]

/-- **One record** fails with what stops it. -/
theorem effect_recordWork_of_obstacle (htables : db.HasTables) {e : StoreError}
    (h : db.obstacle? r = some e) (report : BatchReport) :
    (effect (recordWork r report) db).1 = .error e := by
  unfold obstacle? at h
  unfold recordWork
  rw [effect_bind]
  split at h
  · next hrefuses =>
      obtain rfl := Option.some.inj h
      rw [effect_noteOutcome_of_refuses hrefuses]
  · next haccepts =>
      obtain ⟨table, htable⟩ := Option.isSome_iff_exists.1 htables.1
      obtain ⟨days, hdays⟩ := Option.isSome_iff_exists.1 htables.2
      have hnoted : effect (noteOutcome r.outcome) db =
          (.ok (db.sheets.targets.contains r.outcome.target.bytes), db.noted r.outcome) := by
        refine noteOutcome_ok_iff.2 ⟨⟨table, htable, fun hknown => ?_⟩, rfl, rfl⟩
        rw [refusesOutcome, htable, Option.any_some, hknown, Bool.true_and] at haccepts
        exact Bool.eq_false_iff.2 haccepts
      have hobstacle : (db.noted r.outcome).slotObstacle? r.slot.key = some e := by
        rw [slotObstacle?_noted, h]
      have hwrite := effect_writeSlot_of_obstacle ((history_noted _).trans hdays) hobstacle
      rw [hnoted]
      dsimp only
      rw [effect_bind, hwrite]

end Obstacles

section Batches

/-- What the hand of a database writes is a whole day. -/
theorem length_databaseHand_write (w : SlotWrite) (blob? : Option (List UInt8)) :
    (databaseHand.write w blob?).length = 2880 :=
  DayHistory.length_toBlob _

/-- **No record makes an obstacle or clears one.**  What stops a record stops it before
and after another one is entered, if that one can be. -/
theorem obstacle?_enter (htables : db.HasTables) (h : db.obstacle? r = none) :
    (db.withSheets (databaseHand.enter db.sheets r)).obstacle? = db.obstacle? := by
  obtain ⟨table, htable⟩ := Option.isSome_iff_exists.1 htables.1
  obtain ⟨days, hdays⟩ := Option.isSome_iff_exists.1 htables.2
  have hmisfit : ∀ key, (db.withSheets (databaseHand.enter db.sheets r)).misfit? key =
      db.misfit? key := by
    intro key
    unfold misfit?
    rw [htables.sheets_withSheets, Hand.enter, Table.find?_insert]
    split
    · next heq =>
        obtain rfl : key = r.slot.key := HistoryRowKey.ofKey_injective heq
        have hnone := (slotObstacle?_eq_none_iff.1 (obstacle?_eq_none_iff.1 h).2).1
        rw [Option.map_some, length_databaseHand_write]
        exact hnone.symm
    · rfl
  funext r'
  have houtcome : (db.withSheets (databaseHand.enter db.sheets r)).refusesOutcome r'.outcome =
      db.refusesOutcome r'.outcome := by
    simp [refusesOutcome, withSheets, htable, Hand.enter, sheets_targets htable,
      TargetTable.refuses]
  have hday : (db.withSheets (databaseHand.enter db.sheets r)).refusesDay r'.slot.key =
      db.refusesDay r'.slot.key := by
    simp [refusesDay, withSheets, hdays, HistoryTable.refuses]
  unfold obstacle? slotObstacle?
  rw [houtcome, hday, hmisfit]

/-- **A batch** can be entered if nothing stops any of its records. -/
theorem acceptsAll_iff (htables : db.HasTables) {rs : List OutcomeRecord} :
    AcceptsAll rs db ↔ ∀ r ∈ rs, db.obstacle? r = none := by
  induction rs generalizing db with
  | nil => simp [AcceptsAll]
  | cons r rest ih =>
      rw [AcceptsAll, accepts_iff htables, List.forall_mem_cons]
      refine and_congr_right fun hfree => ?_
      rw [ih (htables.withSheets _), obstacle?_enter htables hfree]

/-- The statements of a batch come as far as the first record that is stopped. -/
theorem effect_batchWork_of_obstacle (htables : db.HasTables) {before : List OutcomeRecord}
    {e : StoreError} (hbefore : ∀ x ∈ before, db.obstacle? x = none)
    (h : db.obstacle? r = some e) (after : List OutcomeRecord) (row : Nat) (report : BatchReport) :
    (effect (batchWork row (before ++ r :: after) report) db).1 =
      .error (atRow (row + before.length) r.outcome.target e) := by
  induction before generalizing db row report with
  | nil =>
      rw [List.nil_append, batchWork, effect_bind, effect_tryCatch_throw,
        effect_recordWork_of_obstacle htables h]
      rfl
  | cons x rest ih =>
      obtain ⟨hx, hrest⟩ := List.forall_mem_cons.1 hbefore
      have hdone : effect (recordWork x report) db =
          (.ok (report + databaseHand.tally db.sheets x),
            db.withSheets (databaseHand.enter db.sheets x)) :=
        recordWork_ok_iff.2 ⟨(accepts_iff htables).2 hx, rfl, rfl⟩
      have hsame := obstacle?_enter htables hx
      rw [List.cons_append, batchWork, effect_bind, tryCatch_throw_ok_iff.2 hdone]
      dsimp only
      rw [ih (htables.withSheets _) (hsame ▸ hrest) (hsame ▸ h), List.length_cons]
      congr 2
      omega

/-- **A batch fails** at the first record that is stopped, with what stops it, and
leaves nothing. -/
theorem record_of_obstacle (htables : db.HasTables) {before : List OutcomeRecord}
    {e : StoreError} (hbefore : ∀ x ∈ before, db.obstacle? x = none)
    (h : db.obstacle? r = some e) (after : List OutcomeRecord) :
    db.record (before ++ r :: after) =
      (db, .error (atRow before.length r.outcome.target e)) := by
  have hwork := effect_batchWork_of_obstacle htables hbefore h after 0 .zero
  have hsome : (before ++ r :: after).isEmpty = false := by
    rw [List.isEmpty_eq_false_iff]
    simp
  unfold record Session.record
  rw [hsome, if_neg Bool.false_ne_true, Session.leave_transact]
  cases hleft : effect (batchWork 0 (before ++ r :: after) .zero) db with
  | mk result left =>
      rw [hleft, Nat.zero_add] at hwork
      obtain rfl : result = _ := hwork
      rfl

/-- So it is wherever in the batch this record stands. -/
theorem record_of_first_obstacle (htables : db.HasTables) {rs : List OutcomeRecord} {i : Nat}
    (hr : rs[i]? = some r) (hfirst : ∀ j x, j < i → rs[j]? = some x → db.obstacle? x = none)
    {e : StoreError} (h : db.obstacle? r = some e) :
    db.record rs = (db, .error (atRow i r.outcome.target e)) := by
  obtain ⟨hi, hat⟩ := List.getElem?_eq_some_iff.1 hr
  have hsplit : rs.take i ++ r :: rs.drop (i + 1) = rs := by
    rw [← hat, List.getElem_cons_drop, List.take_append_drop]
  have hlength : (rs.take i).length = i := by
    rw [List.length_take]
    omega
  have hbefore : ∀ x ∈ rs.take i, db.obstacle? x = none := by
    intro x hx
    obtain ⟨j, hj, hjx⟩ := List.mem_take_iff_getElem.1 hx
    exact hfirst j x (by omega) (List.getElem?_eq_some_iff.2 ⟨by omega, hjx⟩)
  have hrecord := record_of_obstacle htables hbefore h (rs.drop (i + 1))
  rwa [hsplit, hlength] at hrecord

end Batches

end Database

namespace Ledger

/-- A batch fails at the row that is to fail, if it gets there. -/
theorem Draft.applyAll_some (k row : Nat) (rs : List OutcomeRecord) (d : Draft) :
    applyAll (some (row + k)) row rs d =
      match rs[k]? with
      | some r => .error (.rowFailed (row + k) r.outcome.target .injectedFault)
      | none => .ok (rs.foldl apply d) := by
  induction rs generalizing k row d with
  | nil => rfl
  | cons r rest ih =>
      cases k with
      | zero => exact if_pos rfl
      | succ k =>
          have hrow : row + (k + 1) = row + 1 + k := by omega
          have hlater : ¬ some (row + (k + 1)) = some row := by
            rw [Option.some.injEq]
            omega
          rw [applyAll, if_neg hlater, hrow, ih]
          rfl

variable {l : Ledger} {k : Nat}

/-- Whatever comes of a batch, the fault that was set for it is spent. -/
theorem faultyRow_record (l : Ledger) (rs : List OutcomeRecord) :
    (l.record rs).1.faultyRow = none := by
  rcases record_cases l.faultyRow rs with hdone | ⟨e, hfailed⟩
  · rw [hdone l rfl]
    rfl
  · rw [hfailed l rfl]

/-- A batch that gets to the row that is to fail leaves nothing. -/
theorem record_of_faulty (h : l.faultyRow = some k) {rs : List OutcomeRecord} {r : OutcomeRecord}
    (hr : rs[k]? = some r) :
    l.record rs =
      ({ l with faultyRow := none }, .error (.rowFailed k r.outcome.target .injectedFault)) := by
  have hfails : ∀ d, Draft.applyAll (some k) 0 rs d =
      .error (.rowFailed k r.outcome.target .injectedFault) := by
    intro d
    have hat := Draft.applyAll_some k 0 rs d
    rwa [hr, Nat.zero_add] at hat
  unfold record
  dsimp only
  rw [h, hfails]

/-- A batch that ends before that row is recorded. -/
theorem record_of_late_fault (h : l.faultyRow = some k) {rs : List OutcomeRecord}
    (hr : rs.length ≤ k) :
    l.record rs = (l.entered rs, .ok (ledgerHand.enterAll rs l.sheets).2) := by
  refine record_of_applied fun d => ?_
  have hat := Draft.applyAll_some k 0 rs d
  rwa [List.getElem?_eq_none hr, Nat.zero_add, ← h] at hat

end Ledger

namespace Database

/-- The target of the record has a row that refuses to note the outcome, or the row
of its day has not the bytes of a day. -/
def Inapplicable (db : Database) (r : OutcomeRecord) : Prop :=
  db.refusesOutcome r.outcome ∨ (db.misfit? r.slot.key).isSome

/-- A record that can be applied, and the row of whose day may be written, is not
stopped. -/
theorem obstacle?_eq_none_iff_applicable {db : Database} {r : OutcomeRecord} :
    db.obstacle? r = none ↔ ¬ db.Inapplicable r ∧ db.refusesDay r.slot.key = false := by
  rw [obstacle?_eq_none_iff, slotObstacle?_eq_none_iff, Inapplicable]
  cases db.refusesOutcome r.outcome <;> cases db.misfit? r.slot.key <;> simp

end Database

/-- **A batch fails at the first of its records that cannot be applied.**  Take a
database with both tables, whatever they hold and whatever they refuse.  A batch
succeeds when each of its records can be applied and the rows of its days may be
written.  Otherwise it leaves nothing, and the first record for which this is not so
decides how it fails: at that row, if the row of the target refuses to note the
outcome, whatever the row of the day is like; as corrupt, if it does not and the row
of the day has not the bytes of a day; and at that row, if only that row may not be
written.

A ledger with a fault set for some row fails at this row if the batch is long enough,
and takes the batch if it is not; the fault is spent in either case. -/
theorem batches_fail_at_the_first_inapplicable_record :
    (∀ (db : Database) (rs : List OutcomeRecord), db.HasTables →
      ((∃ db' report, db.record rs = (db', .ok report)) ↔
        ∀ r ∈ rs, ¬ db.Inapplicable r ∧ db.refusesDay r.slot.key = false) ∧
      ∀ (i : Nat) (r : OutcomeRecord), rs[i]? = some r →
        (∀ j x, j < i → rs[j]? = some x →
          ¬ db.Inapplicable x ∧ db.refusesDay x.slot.key = false) →
        (db.refusesOutcome r.outcome →
          db.record rs = (db, .error (.rowFailed i r.outcome.target .rejected))) ∧
        (db.refusesOutcome r.outcome = false → ∀ length, db.misfit? r.slot.key = some length →
          db.record rs = (db, .error (.corrupt (.blobLength r.slot.key length)))) ∧
        (¬ db.Inapplicable r → db.refusesDay r.slot.key →
          db.record rs = (db, .error (.rowFailed i r.outcome.target .rejected)))) ∧
    (∀ (l : Ledger) (rs : List OutcomeRecord) (k : Nat), l.faultyRow = some k →
      (l.record rs).1.faultyRow = none ∧
      (∀ r, rs[k]? = some r → l.record rs =
        ({ l with faultyRow := none }, .error (.rowFailed k r.outcome.target .injectedFault))) ∧
      (rs.length ≤ k → ∃ l' report, l.record rs = (l', .ok report))) := by
  constructor
  · intro db rs htables
    simp only [← Database.obstacle?_eq_none_iff_applicable]
    constructor
    · rw [← Database.acceptsAll_iff htables]
      constructor
      · intro hdone
        obtain ⟨_, _, hdone⟩ := hdone
        exact (Database.record_ok_iff.1 hdone).1
      · intro haccepts
        exact ⟨_, _, Database.record_ok_iff.2 ⟨haccepts, rfl, rfl⟩⟩
    · intro i r hr hfirst
      have hfails : ∀ e, db.obstacle? r = some e →
          db.record rs = (db, .error (Database.atRow i r.outcome.target e)) := fun _ he =>
        Database.record_of_first_obstacle htables hr hfirst he
      refine ⟨fun hrefuses => hfails _ (if_pos hrefuses), ?_, ?_⟩
      · intro haccepts length hmisfit
        refine hfails (.corrupt (.blobLength r.slot.key length)) ?_
        rw [Database.obstacle?, haccepts, if_neg Bool.false_ne_true, Database.slotObstacle?,
          hmisfit]
      · intro happlicable hrefuses
        rw [Database.Inapplicable, not_or, Bool.not_eq_true, Bool.not_eq_true,
          Option.isSome_eq_false_iff, Option.isNone_iff_eq_none] at happlicable
        refine hfails (.unavailable .rejected) ?_
        rw [Database.obstacle?, happlicable.1, if_neg Bool.false_ne_true, Database.slotObstacle?,
          happlicable.2]
        exact if_pos hrefuses
  · intro l rs k hfault
    exact ⟨l.faultyRow_record rs, fun r hr => Ledger.record_of_faulty hfault hr,
      fun hshort => ⟨_, _, Ledger.record_of_late_fault hfault hshort⟩⟩

/-- Two records cannot be applied: the day of one has two bytes, the target of the other
refuses its outcome and its day has three.  Whichever comes first decides. -/
theorem batches_fail_at_the_first_inapplicable_record_either_first :
    ∃ (db : Database) (good misfit refused : OutcomeRecord),
      db.HasTables ∧ db.Inapplicable misfit ∧ db.Inapplicable refused ∧
      (db.misfit? refused.slot.key).isSome ∧
      db.record [good, misfit, refused] =
        (db, .error (.corrupt (.blobLength misfit.slot.key 2))) ∧
      db.record [good, refused, misfit] =
        (db, .error (.rowFailed 1 refused.outcome.target .rejected)) := by
  let row : TargetRow := .ofTarget (.fresh default "peer:1" .ping)
  let recordOf (byte : UInt8) : OutcomeRecord :=
    .ofOutcome .nil ⟨⟨List.replicate 32 byte, List.length_replicate⟩, default, 7, none⟩
  let good := recordOf 2
  let misfit := recordOf 1
  let refused := recordOf 0
  let days : Table HistoryRowKey (List UInt8) :=
    ((∅ : Table _ _).insert (.ofKey misfit.slot.key) [0, 0]).insert
      (.ofKey refused.slot.key) [0, 0, 0]
  let db : Database := ⟨some ⟨(∅ : Table _ _).insert row.id row, [(.outcome, row.id)]⟩,
    some ⟨days, []⟩, [1]⟩
  have hmisfit : db.misfit? misfit.slot.key = some 2 := by decide +kernel
  have hboth : (db.misfit? refused.slot.key).isSome := by decide +kernel
  have hnone : db.misfit? good.slot.key = none := by decide +kernel
  have hrefuses : db.refusesOutcome refused.outcome := by decide +kernel
  have haccepts : db.refusesOutcome misfit.outcome = false := by decide +kernel
  have hgood : ¬ db.Inapplicable good ∧ db.refusesDay good.slot.key = false := by
    refine ⟨?_, rfl⟩
    rw [Database.Inapplicable, hnone]
    decide +kernel
  have hfirst : ∀ (rest : List OutcomeRecord) (j : Nat) (x : OutcomeRecord), j < 1 →
      (good :: rest)[j]? = some x → ¬ db.Inapplicable x ∧ db.refusesDay x.slot.key = false := by
    intro rest j x hj hx
    obtain rfl : j = 0 := by omega
    obtain rfl : good = x := Option.some.inj hx
    exact hgood
  have hfails := batches_fail_at_the_first_inapplicable_record.1 db
  refine ⟨db, good, misfit, refused, ⟨rfl, rfl⟩, .inr (by rw [hmisfit]; rfl), .inl hrefuses, hboth,
    ?_, ?_⟩
  · exact ((hfails _ ⟨rfl, rfl⟩).2 1 misfit rfl (hfirst _)).2.1 haccepts 2 hmisfit
  · exact ((hfails _ ⟨rfl, rfl⟩).2 1 refused rfl (hfirst _)).1 hrefuses

end PeerWatch
