import PeerWatch.Proofs.Calls
import PeerWatch.Proofs.Transcriptions

/-!
# The database refines the ledger

Asked the same, the two stores answer the same, as long as the database can
keep what it is told: moments are kept in whole milliseconds, and days are kept
as texts, which are in the order of the days for the years from 0 to 9999.  So
the ledger is asked with its moments cut to milliseconds.

* `Refines` — a database that transcribes a ledger and refuses nothing;
* `Refines.answer` — one call; `Refines.serve` — any number of them;
* `Refines.serve_session` — any number of them in one session;
* `database_refines_ledger` — from a new file and an empty ledger on.
-/

namespace PeerWatch

open Calendar

/-- Both tables are there and refuse nothing. -/
structure Database.Unhindered (db : Database) : Prop where
  targets : ∃ table, db.targets = some table ∧ table.refusals = []
  history : ∃ table, db.history = some table ∧ table.refusals = []

/-- A database that answers as a ledger does. -/
structure Refines (db : Database) (l : Ledger) : Prop where
  unhindered : db.Unhindered
  faultless : l.faultyRow = none ∧ l.faultyClaim = false
  sheets : Transcribes db.sheets l.sheets

/-- A call that a database can keep, but for what is finer than a millisecond,
and for whose answer there is room. -/
def StoreCall.Keepable : StoreCall → Prop
  | .claim limit now => limit ≤ Database.claimBound ∧ now.isLeapSecond = false
  | .record rs => ∀ r ∈ rs, r.Keepable
  | .target _ => True
  | .range _ _ _ last => last.HasPlainYear

/-- There is room for what a call hands out that keeps within the limits. -/
theorem StoreCall.Keepable.hasRoom {call : StoreCall} (h : call.Keepable) : call.HasRoom := by
  cases call with
  | claim limit now => exact h.1
  | record rs => trivial
  | target id => trivial
  | range target owner first last => trivial

/-- A call with its moments in whole milliseconds. -/
def StoreCall.floorMillis : StoreCall → StoreCall
  | .claim limit now => .claim limit now.floorMillis
  | .record rs => .record (rs.map OutcomeRecord.floorMillis)
  | .target id => .target id
  | .range id owner first last => .range id owner first last

section Hindrances

/-- A table for which no refusals are set refuses nothing. -/
theorem TargetTable.refuses_of_nil {table : TargetTable} (h : table.refusals = [])
    (write : GuardedWrite) (id : List UInt8) : table.refuses write id = false := by
  simp [refuses, h]

/-- A database that nothing hinders has both tables. -/
theorem Database.Unhindered.hasTables {db : Database} (h : db.Unhindered) : db.HasTables := by
  obtain ⟨⟨table, htable, _⟩, ⟨days, hdays, _⟩⟩ := h
  exact ⟨by simp [htable], by simp [hdays]⟩

theorem Database.Unhindered.withSheets {db : Database} (h : db.Unhindered) (raw : RawSheets) :
    (db.withSheets raw).Unhindered := by
  obtain ⟨⟨table, htable, hrefusals⟩, ⟨days, hdays, hrefusals'⟩⟩ := h
  exact ⟨⟨{ table with rows := raw.targets }, by simp [Database.withSheets, htable], hrefusals⟩,
    ⟨{ days with rows := raw.history }, by simp [Database.withSheets, hdays], hrefusals'⟩⟩

/-- Stamping targets none of which refuses it changes their rows one after another. -/
theorem Database.effect_stampAll_of_accepted {db : Database} {table : TargetTable}
    (h : db.targets = some table) (stamp : Int) {ts : List Target}
    (haccepted : ∀ t ∈ ts, table.refuses .claim t.id.bytes = false) :
    Database.effect (Database.stampAll stamp ts) db =
      (.ok (), { db with targets := some { table with rows := stampRows stamp ts table.rows } }) := by
  induction ts generalizing db table with
  | nil =>
      have hsame : db = { db with targets := some table } := by rw [← h]
      exact congrArg (Prod.mk _) hsame
  | cons t rest ih =>
      let stamped : TargetTable :=
        { table with rows := table.rows.modify t.id.bytes (TargetRow.stamped stamp) }
      have hset : Database.effect (Database.setTargetRows table
          (table.rows.modify t.id.bytes fun row => { row with lastClaimedAt := some stamp })) db =
          (.ok (), { db with targets := some stamped }) := rfl
      rw [Database.stampAll, Database.effect_bind, Database.effect_targetTable h]
      simp only [haccepted t List.mem_cons_self, Bool.false_eq_true, if_false]
      have hnext : ({ db with targets := some stamped } : Database).targets = some stamped := rfl
      rw [Database.effect_bind, hset]
      exact ih hnext fun t ht => haccepted t (List.mem_cons_of_mem _ ht)

/-- Nothing hinders the stamps of a claim. -/
theorem Database.Unhindered.effect_stampAll {db : Database} (h : db.Unhindered) (stamp : Int)
    (ts : List Target) :
    Database.effect (Database.stampAll stamp ts) db =
      (.ok (), db.withSheets ⟨stampRows stamp ts db.sheets.targets, db.sheets.history⟩) := by
  obtain ⟨table, htable, hrefusals⟩ := h.targets
  obtain ⟨days, hdays, _⟩ := h.history
  have haccepted : ∀ t ∈ ts, table.refuses .claim t.id.bytes = false := fun _ _ =>
    TargetTable.refuses_of_nil hrefusals _ _
  rw [Database.effect_stampAll_of_accepted htable stamp haccepted, Database.sheets_targets htable,
    Database.sheets_history hdays]
  unfold Database.withSheets
  rw [htable, hdays]
  rfl

/-- Nothing hinders a batch. -/
theorem Database.Unhindered.acceptsAll {db : Database} {typed : TypedSheets} (hdb : db.Unhindered)
    (h : Transcribes db.sheets typed) {rs : List OutcomeRecord} (hrs : ∀ r ∈ rs, r.Keepable) :
    Database.AcceptsAll rs db := by
  induction rs generalizing db typed with
  | nil => trivial
  | cons r rest ih =>
      have henter := h.enter (hrs r List.mem_cons_self)
      have hsheets : (db.withSheets (databaseHand.enter db.sheets r)).sheets =
          databaseHand.enter db.sheets r := hdb.hasTables.sheets_withSheets _
      refine ⟨⟨?_, ?_⟩, ?_⟩
      · obtain ⟨table, htable, hrefusals⟩ := hdb.targets
        exact ⟨table, htable, fun _ => TargetTable.refuses_of_nil hrefusals _ _⟩
      · obtain ⟨days, hdays, hrefusals⟩ := hdb.history
        refine ⟨days, hdays, by simp [HistoryTable.refuses, hrefusals], ?_⟩
        intro blob hblob
        have hrows : db.sheets.history = days.rows := Database.sheets_history hdays
        rw [← hrows, h.history.find] at hblob
        obtain ⟨row, _, rfl⟩ := Option.map_eq_some_iff.1 hblob
        simp [DayHistory.ofBlob?_toBlob]
      · exact ih (hdb.withSheets _) (hsheets ▸ henter) fun r hr =>
          hrs r (List.mem_cons_of_mem _ hr)

end Hindrances

section Claims

/-- Targets put into a ledger after a claim. -/
theorem Ledger.putAll_claimed (l : Ledger) (now : Instant) (ts : List Target) :
    l.putAll (ts.map fun t => { t with lastClaimedAt := some now }) =
      { l with targets := putClaimed now ts l.targets } := by
  induction ts generalizing l with
  | nil => rfl
  | cons t rest ih => exact ih (l.put (t.claimedAt (some now)))

/-- Everything in the queue of a ledger is in its table. -/
theorem Ledger.find?_of_mem_queue {l : Ledger} (h : l.targets.Keyed Target.id) {t : Target}
    (ht : t ∈ l.queue) : l.targets.find? t.id = some t := by
  have hmem := (List.mergeSort_perm _ _).mem_iff.1 ht
  exact h.mem_values_iff.1 (List.mem_filter.1 hmem).1

/-- A ledger for which no fault is set stamps what it hands out. -/
theorem Ledger.claim_of_no_fault {l : Ledger} (h : l.faultyClaim = false) (limit : Nat)
    (now : Instant) :
    l.claim limit now = ({ l with targets := putClaimed now (l.queue.take limit) l.targets },
      .ok ((l.queue.take limit).map (·.claimedAt (some now)))) := by
  unfold Ledger.claim
  rw [if_neg (by simp [h])]
  exact Prod.ext (l.putAll_claimed now _) rfl

variable {db : Database} {l : Ledger}

/-- What is first in the queue of the ledger is first in that of the database. -/
theorem Refines.decodeRows_queue (h : Refines db l) {table : TargetTable}
    (htable : db.targets = some table) (limit : Nat) :
    decodeRows (table.queue.take limit) = .ok (l.queue.take limit) := by
  have hrows : db.sheets.targets = table.rows := Database.sheets_targets htable
  have hwhole : ∀ t ∈ l.targets.values, t.IsWhole := fun t ht =>
    h.sheets.whole t.id t (h.sheets.keyedTargets.mem_values_iff.1 ht)
  have hqueue : table.queue = l.queue.map TargetRow.encode :=
    TargetTable.queue_of_mirrors (hrows ▸ h.sheets.targets) hwhole
  rw [hqueue, ← List.map_take]
  refine TargetRow.decodeRows_map fun t ht => ?_
  exact h.sheets.whole t.id t
    (Ledger.find?_of_mem_queue h.sheets.keyedTargets (List.mem_of_mem_take ht))

/-- The statements of a claim stamp the rows of what they hand out. -/
theorem Refines.effect_claimWork (h : Refines db l) (limit : Nat) {now : Instant}
    (hnow : now.isLeapSecond = false) :
    Database.effect (Database.claimWork limit now) db =
      (.ok ((l.queue.take limit).map (·.claimedAt (some now.floorMillis))),
        db.withSheets ⟨stampRows now.toMillis (l.queue.take limit) db.sheets.targets,
          db.sheets.history⟩) := by
  obtain ⟨table, htable, _⟩ := h.unhindered.targets
  have hmoment : decodeMillis now.toMillis = .ok now.floorMillis := by
    unfold decodeMillis
    rw [Instant.ofMillis?_toMillis hnow]
  have hdecoded := h.decodeRows_queue htable limit
  unfold Database.claimWork Database.handOut
  simp only [Database.bind_ok_iff, Database.lift_ok_iff, Database.pure_ok_iff,
    Database.targetTable_ok_iff]
  exact ⟨_, _, ⟨hmoment, rfl⟩, _, _, ⟨htable, rfl⟩, _, _, ⟨hdecoded, rfl⟩, _, _,
    h.unhindered.effect_stampAll _ _, rfl, rfl⟩

/-- **A claim** is answered alike. -/
theorem Refines.claim (h : Refines db l) (limit : Nat) {now : Instant}
    (hnow : now.isLeapSecond = false) :
    (db.claim limit now).2 = (l.claim limit now.floorMillis).2 ∧
      Refines (db.claim limit now).1 (l.claim limit now.floorMillis).1 := by
  have hledger := Ledger.claim_of_no_fault h.faultless.2 limit now.floorMillis
  by_cases hlimit : limit = 0
  · subst hlimit
    rw [hledger]
    exact ⟨rfl, h⟩
  · have hclaim : db.claim limit now = Database.Session.leave
        ((Database.Session.idle db).transact .free (Database.claimWork limit now)) := by
      unfold Database.claim
      rw [if_neg hlimit]
    have hdatabase := Database.Session.leave_transact_ok_iff.2 (h.effect_claimWork limit hnow)
    rw [hclaim, hdatabase, hledger]
    refine ⟨rfl, h.unhindered.withSheets _, h.faultless, ?_⟩
    rw [h.unhindered.hasTables.sheets_withSheets, ← Instant.toMillis_floorMillis]
    refine h.sheets.stampAll (Instant.isWhole_floorMillis hnow) fun t ht => ?_
    exact ⟨t.lastClaimedAt,
      Ledger.find?_of_mem_queue h.sheets.keyedTargets (List.mem_of_mem_take ht)⟩

end Claims

section Answers

variable {db : Database} {l : Ledger}

/-- **A batch** is answered alike. -/
theorem Refines.record (h : Refines db l) {rs : List OutcomeRecord} (hrs : ∀ r ∈ rs, r.Keepable) :
    (db.record rs).2 = (l.record (rs.map OutcomeRecord.floorMillis)).2 ∧
      Refines (db.record rs).1 (l.record (rs.map OutcomeRecord.floorMillis)).1 := by
  obtain ⟨hsheets, hreport⟩ := h.sheets.enterAll hrs
  have hdatabase := Database.record_ok_iff.2 ⟨h.unhindered.acceptsAll h.sheets hrs, rfl, rfl⟩
  rw [hdatabase, Ledger.record_of_no_fault h.faultless.1]
  refine ⟨congrArg Except.ok hreport, h.unhindered.withSheets _, ⟨rfl, h.faultless.2⟩, ?_⟩
  rw [h.unhindered.hasTables.sheets_withSheets]
  exact hsheets

/-- **A look at a target** is answered alike. -/
theorem Refines.target? (h : Refines db l) (id : TargetId) :
    db.target? id = .ok (l.targets.find? id) := by
  obtain ⟨table, htable, _⟩ := h.unhindered.targets
  have hrows : db.sheets.targets = table.rows := Database.sheets_targets htable
  have hfound : table.rows.find? id.bytes = (l.targets.find? id).map TargetRow.encode :=
    hrows ▸ h.sheets.targets.find id
  unfold Database.target?
  simp only [htable, hfound]
  cases htarget : l.targets.find? id with
  | none => rfl
  | some t =>
      simp only [Option.map_some, TargetRow.decode_encode (h.sheets.whole id t htarget)]
      rfl

/-- **A look at a span of days** is answered alike. -/
theorem Refines.range (h : Refines db l) (target : TargetId) (owner : OwnerId) (first : Day)
    {last : Day} (hlast : last.HasPlainYear) :
    db.range target owner first last = .ok (l.range target owner first last) := by
  have hkeyed : l.history.Keyed DayHistory.key := h.sheets.keyedHistory
  by_cases hspan : last < first
  · have hnone : l.range target owner first last = [] := by
      refine List.eq_nil_iff_forall_not_mem.2 fun row hrow => ?_
      obtain ⟨_, _, _, hfirst, hend⟩ := (Ledger.mem_range_iff hkeyed).1 hrow
      exact absurd (Int.le_trans hfirst hend) (Int.not_le.2 hspan)
    rw [hnone, Database.range, if_pos hspan]
  · obtain ⟨days, hdays, _⟩ := h.unhindered.history
    have hrows : db.sheets.history = days.rows := Database.sheets_history hdays
    obtain ⟨rows, hrange, hmem, hascending⟩ := Database.range_of_mirrors hdays
      (hrows ▸ h.sheets.history) hkeyed target owner hspan
    have hfirst : first.civil.year ≤ 9999 :=
      Int.le_trans (Day.year_le_of_le (Int.not_lt.1 hspan)) hlast.2
    have hplain : ∀ row ∈ rows, row.key.day.HasPlainYear := fun row hrow =>
      h.sheets.plain _ row ((hmem row).1 hrow).1
    have hdays : rows.Pairwise fun a b => a.key.day < b.key.day := by
      refine hascending.imp_of_mem ?_
      intro a b ha hb hlt
      exact (Day.text_lt_iff (hplain a ha) (hplain b hb)).1 hlt
    rw [hrange]
    refine congrArg Except.ok (eq_of_pairwise_of_mem_iff (fun _ _ => Int.lt_asymm) hdays
      (Ledger.range_ascending hkeyed target owner first last) fun row => ?_)
    rw [hmem, Ledger.mem_range_iff hkeyed]
    refine and_congr_right fun hrow => ?_
    have hday : row.key.day.HasPlainYear := h.sheets.plain _ row hrow
    rw [Day.text_le_iff hfirst hday, Day.text_le_iff hday.2 hlast]

/-- **One call** is answered alike by a database and the ledger it refines, and
it refines what became of the ledger. -/
theorem Refines.answer (h : Refines db l) {call : StoreCall} (hcall : call.Keepable) :
    (db.answer call).2 = (l.answer call.floorMillis).2 ∧
      Refines (db.answer call).1 (l.answer call.floorMillis).1 := by
  cases call with
  | claim limit now =>
      obtain ⟨hanswer, hnext⟩ := h.claim limit hcall.2
      exact ⟨congrArg (Except.map StoreAnswer.claimed) hanswer, hnext⟩
  | record rs =>
      obtain ⟨hanswer, hnext⟩ := h.record hcall
      exact ⟨congrArg (Except.map StoreAnswer.recorded) hanswer, hnext⟩
  | target id => exact ⟨congrArg (Except.map StoreAnswer.found) (h.target? id), h⟩
  | range target owner first last =>
      exact ⟨congrArg (Except.map StoreAnswer.shown) (h.range target owner first hcall), h⟩

/-- **Any number of calls** is answered alike. -/
theorem Refines.serve (h : Refines db l) {calls : List StoreCall}
    (hcalls : ∀ call ∈ calls, call.Keepable) :
    (PeerWatch.serve Database.answer calls db).2 =
      (PeerWatch.serve Ledger.answer (calls.map StoreCall.floorMillis) l).2 := by
  induction calls generalizing db l with
  | nil => rfl
  | cons call rest ih =>
      obtain ⟨hanswer, hnext⟩ := h.answer (hcalls call List.mem_cons_self)
      have hrest := ih hnext fun call hcall => hcalls call (List.mem_cons_of_mem _ hcall)
      rw [List.map_cons, PeerWatch.serve, PeerWatch.serve, hanswer, hrest]

/-- **One session** answers them alike, and tears no caller down. -/
theorem Refines.serve_session (h : Refines db l) {calls : List StoreCall}
    (hcalls : ∀ call ∈ calls, call.Keepable) :
    (PeerWatch.serve Database.Session.answer (calls.map fun call => (.free, .store call))
        (.idle db)).2 =
      (PeerWatch.serve Ledger.answer (calls.map StoreCall.floorMillis) l).2.map some := by
  rw [Database.Session.serve_idle fun call hcall => (hcalls call hcall).hasRoom, ← h.serve hcalls]

end Answers

section Beginnings

/-- Nothing is known of the target yet. -/
def Target.IsFresh (t : Target) : Prop := t = .fresh t.id t.address t.mode

/-- A target that was never touched carries no moment that a database could not keep. -/
theorem Target.IsFresh.isWhole {t : Target} (h : t.IsFresh) : t.IsWhole := by
  rw [h]
  constructor
  · intro moment hmoment
    cases hmoment
  · intro moment hmoment
    cases hmoment

/-- A new file and an empty ledger. -/
theorem refines_empty : Refines Database.blank.migrate Ledger.empty where
  unhindered := ⟨⟨⟨∅, []⟩, rfl, rfl⟩, ⟨⟨∅, []⟩, rfl, rfl⟩⟩
  faultless := ⟨rfl, rfl⟩
  sheets :=
    { targets := Table.Mirrors.empty
      history := Table.Mirrors.empty
      keyedTargets := Table.Keyed.empty
      keyedHistory := Table.Keyed.empty
      whole := fun _ _ h => by cases h
      plain := fun _ _ h => by cases h }

/-- Nothing is known of any target yet. -/
def Ledger.AllFresh (l : Ledger) : Prop := ∀ id t, l.targets.find? id = some t → t.IsFresh

theorem Ledger.AllFresh.put {l : Ledger} (h : l.AllFresh) {t : Target} (ht : t.IsFresh) :
    (l.put t).AllFresh := by
  intro id t' hfound
  rw [Ledger.put, Table.find?_insert] at hfound
  split at hfound
  · obtain rfl := Option.some.inj hfound
    exact ht
  · exact h id t' hfound

variable {db : Database} {l : Ledger}

/-- A row that is there already is of a fresh target, so nothing in it is kept. -/
theorem Refines.row_of_fresh (h : Refines db l) (hfresh : l.AllFresh) {t : Target}
    (ht : t.IsFresh) :
    TargetRow.putIn t (db.sheets.targets.find? t.id.bytes) = TargetRow.encode t := by
  rw [h.sheets.targets.find]
  cases hfound : l.sheets.targets.find? t.id with
  | none =>
      rw [ht]
      rfl
  | some t' =>
      have hid : t'.id = t.id := h.sheets.keyedTargets _ _ hfound
      rw [hfresh _ _ hfound, ht, Option.map_some]
      simp only [TargetRow.putIn, TargetRow.encode, Target.fresh, hid]

/-- Putting in a fresh target writes its row. -/
theorem Refines.effect_upsertWork_cons (h : Refines db l) (hfresh : l.AllFresh) {t : Target}
    (ht : t.IsFresh) (rest : List Target) :
    Database.effect (Database.upsertWork (t :: rest)) db =
      Database.effect (Database.upsertWork rest) (db.withSheets
        ⟨db.sheets.targets.insert t.id.bytes (TargetRow.encode t), db.sheets.history⟩) := by
  obtain ⟨table, htable, hrefusals⟩ := h.unhindered.targets
  have hrows : db.sheets.targets = table.rows := Database.sheets_targets htable
  have hrow := h.row_of_fresh hfresh ht
  rw [hrows] at hrow ⊢
  rw [Database.effect_upsertWork_cons htable (TargetTable.refuses_of_nil hrefusals _ _), hrow,
    Database.withSheets_targets htable]

/-- Fresh targets put into a database are put into the ledger it refines. -/
theorem Refines.upsertWork (h : Refines db l) (hfresh : l.AllFresh) {ts : List Target}
    (hts : ∀ t ∈ ts, t.IsFresh) :
    ∃ db', Database.effect (Database.upsertWork ts) db = (.ok (), db') ∧
      Refines db' (l.putAll ts) := by
  induction ts generalizing db l with
  | nil => exact ⟨db, rfl, h⟩
  | cons t rest ih =>
      have ht := hts t List.mem_cons_self
      have hnext : Refines (db.withSheets
          ⟨db.sheets.targets.insert t.id.bytes (TargetRow.encode t), db.sheets.history⟩)
          (l.put t) := by
        refine ⟨h.unhindered.withSheets _, h.faultless, ?_⟩
        rw [h.unhindered.hasTables.sheets_withSheets]
        exact h.sheets.put ht.isWhole
      rw [h.effect_upsertWork_cons hfresh ht]
      exact ih hnext (hfresh.put ht) fun t ht => hts t (List.mem_cons_of_mem _ ht)

end Beginnings

/-- Fresh targets put into a new file by a session are put into an empty ledger. -/
theorem refines_upsert {ts : List Target} (hts : ∀ t ∈ ts, t.IsFresh) :
    ∃ db, (Database.Session.idle Database.blank.migrate).upsert .free ts =
        (.idle db, .ok ts.length) ∧
      Refines db (Ledger.empty.putAll ts) := by
  obtain ⟨db, hwork, hrefines⟩ := refines_empty.upsertWork (fun _ _ h => by cases h) hts
  have hupsert : Database.effect (do Database.upsertWork ts; pure ts.length)
      Database.blank.migrate = (.ok ts.length, db) :=
    Database.bind_ok_iff.2 ⟨(), db, hwork, rfl⟩
  refine ⟨db, ?_, hrefines⟩
  rw [Database.Session.upsert, Database.Session.transact_free, hupsert]

/-- **The database refines the ledger.**  Let a session open a new file and put fresh targets
into it, and put them into an empty ledger.  From then on, whatever claims, batches and looks
follow in this session, if a database can keep them at all, it gives the answers that the
ledger gives to the same calls in whole milliseconds. -/
theorem database_refines_ledger (path : String) {ts : List Target} (hts : ∀ t ∈ ts, t.IsFresh)
    {calls : List StoreCall} (hcalls : ∀ call ∈ calls, call.Keepable) :
    ∃ opened s, DatabaseFile.absent.openAt path = .ok opened ∧
      (Database.Session.idle opened).upsert .free ts = (s, .ok ts.length) ∧
      (serve Database.Session.answer (calls.map fun call => (.free, .store call)) s).2 =
        (serve Ledger.answer (calls.map StoreCall.floorMillis)
          (Ledger.empty.putAll ts)).2.map some := by
  obtain ⟨db, hupsert, hrefines⟩ := refines_upsert hts
  exact ⟨Database.blank.migrate, .idle db, rfl, hupsert, hrefines.serve_session hcalls⟩

/-- A target is claimed at a moment finer than a millisecond, its outcome is
recorded, and it is looked at with its history, all in the session that put it in. -/
theorem database_refines_ledger_one_probe :
    ∃ opened s, DatabaseFile.absent.openAt "peers.db" = .ok opened ∧
      (Database.Session.idle opened).upsert .free [.fresh default "peer:1" .ping] =
        (s, .ok 1) ∧
      (serve Database.Session.answer
        [(.free, .store (.claim 1 ⟨0, 1999999, by decide, by decide⟩)),
          (.free, .store (.record
            [.ofOutcome .nil ⟨default, ⟨0, 1999999, by decide, by decide⟩, 7, none⟩])),
          (.free, .store (.target default)),
          (.free, .store (.range default .nil .epoch .epoch))] s).2 =
      (serve Ledger.answer
        [.claim 1 ⟨0, 1000000, by decide, by decide⟩,
          .record [.ofOutcome .nil ⟨default, ⟨0, 1000000, by decide, by decide⟩, 7, none⟩],
          .target default, .range default .nil .epoch .epoch]
        (Ledger.empty.putAll [.fresh default "peer:1" .ping])).2.map some := by
  have hts : ∀ t ∈ [Target.fresh default "peer:1" .ping], t.IsFresh := by
    intro t ht
    rw [List.mem_singleton.1 ht]
    rfl
  have hcalls : ∀ call ∈ [.claim 1 ⟨0, 1999999, by decide, by decide⟩,
      .record [.ofOutcome .nil ⟨default, ⟨0, 1999999, by decide, by decide⟩, 7, none⟩],
      .target default, .range default .nil .epoch .epoch], StoreCall.Keepable call := by
    intro call hcall
    simp only [List.mem_cons, List.not_mem_nil, or_false] at hcall
    rcases hcall with rfl | rfl | rfl | rfl
    · exact ⟨by decide, rfl⟩
    · intro r hr
      rw [List.mem_singleton.1 hr]
      exact ⟨rfl, by decide⟩
    · trivial
    · show Day.epoch.HasPlainYear
      decide
  exact database_refines_ledger "peers.db" hts hcalls

end PeerWatch
