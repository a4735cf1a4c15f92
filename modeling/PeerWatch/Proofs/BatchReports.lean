import Mathlib.Data.Finset.Card
import PeerWatch.Proofs.FirstFaults
import PeerWatch.Proofs.Liveness

/-!
# What a batch reports

A batch may name a day that has no row many times over: the first of these records
begins the row, and the others find it, although nothing of the batch is in the
tables yet.  So the rows that are reported as new are as many as the days without a
row that the batch names, and all other records are reported as updates.  A record
may name a minute that no day has, and a day of another target than its outcome's;
it is counted like any other.

* `Hand.rowsInserted_enterAll` — the rows that are reported as new;
* `Backend.hasTarget`, `Backend.hasDay`, `Backend.dayCount` — the rows of a store;
* `Backend.Entered.report`, `Backend.Entered.keepsOtherDays` — what is entered;
* `Backend.report_accounts_for_every_record`.
-/

set_option linter.unusedSectionVars false

namespace PeerWatch

namespace Hand

variable {τ ρ κ δ : Type} [Ord τ] [Std.TransOrd τ] [Std.LawfulEqOrd τ] [DecidableEq τ]
  [Ord κ] [Std.TransOrd κ] [Std.LawfulEqOrd κ] [DecidableEq κ] (h : Hand τ ρ κ δ)

/-- The days that some records name and that have no row. -/
def newDays (rs : List OutcomeRecord) (s : Sheets τ ρ κ δ) : Finset HistoryKey :=
  (rs.map (·.slot.key)).toFinset.filter fun key => s.history.contains (h.dayKey key) = false

/-- Once a record is entered, its day is not new any more. -/
theorem newDays_enter (rs : List OutcomeRecord) (s : Sheets τ ρ κ δ) (r : OutcomeRecord) :
    h.newDays rs (h.enter s r) = (h.newDays rs s).erase r.slot.key := by
  ext key
  have hkey : h.dayKey key = h.dayKey r.slot.key ↔ key = r.slot.key :=
    ⟨h.dayKey_inj _ _, congrArg h.dayKey⟩
  simp only [newDays, enter, Table.contains_insert, Finset.mem_filter, Finset.mem_erase,
    Bool.or_eq_false_iff, decide_eq_false_iff_not, hkey]
  exact and_left_comm

/-- **New rows** are reported for the days that had none, for each of them once. -/
theorem rowsInserted_enterAll (rs : List OutcomeRecord) (s : Sheets τ ρ κ δ) :
    (h.enterAll rs s).2.rowsInserted = (h.newDays rs s).card := by
  induction rs generalizing s with
  | nil => rfl
  | cons r rest ih =>
      have hcons : h.newDays (r :: rest) s =
          if s.history.contains (h.dayKey r.slot.key) then h.newDays rest s
          else insert r.slot.key (h.newDays rest s) := by
        simp only [newDays, List.map_cons, List.toFinset_cons, Finset.filter_insert]
        cases s.history.contains (h.dayKey r.slot.key) <;> rfl
      rw [enterAll, BatchReport.rowsInserted_add, ih, newDays_enter, hcons, tally]
      cases hold : s.history.contains (h.dayKey r.slot.key) with
      | true =>
          have hknown : r.slot.key ∉ h.newDays rest s := by
            simp [newDays, hold]
          simp only [if_true, Finset.erase_eq_of_notMem hknown, Nat.zero_add]
      | false =>
          simp only [Bool.false_eq_true, if_false]
          rw [← Finset.erase_insert_eq_erase, Finset.card_erase_of_mem (Finset.mem_insert_self _ _)]
          have hpos := Finset.card_pos.2 (Finset.insert_nonempty r.slot.key (h.newDays rest s))
          omega

end Hand

namespace Backend

/-- Whether the store has a row for a target. -/
def hasTarget (id : TargetId) : Backend → Bool
  | .ledger l => l.targets.contains id
  | .database db => db.sheets.targets.contains id.bytes

/-- Whether the store has a row for a day, be it one that can be read or not. -/
def hasDay (key : HistoryKey) : Backend → Bool
  | .ledger l => l.history.contains key
  | .database db => db.sheets.history.contains (HistoryRowKey.ofKey key)

/-- How many rows of days the store has. -/
def dayCount : Backend → Nat
  | .ledger l => l.history.size
  | .database db => db.sheets.history.size

/-- The rows of all other days are what they were.  In a database these are all rows
under other raw keys, whether or not these tell a day. -/
inductive KeepsOtherDays (rs : List OutcomeRecord) : Backend → Backend → Prop
  | ledger {l l' : Ledger}
      (h : ∀ key, (∀ r ∈ rs, r.slot.key ≠ key) → l'.history.find? key = l.history.find? key) :
      KeepsOtherDays rs (.ledger l) (.ledger l')
  | database {db db' : Database}
      (h : ∀ key, (∀ r ∈ rs, HistoryRowKey.ofKey r.slot.key ≠ key) →
        db'.sheets.history.find? key = db.sheets.history.find? key) :
      KeepsOtherDays rs (.database db) (.database db')

section Entered

variable {b b' : Backend} {rs : List OutcomeRecord} {reported : BatchReport}

/-- **What is reported** of records that were entered. -/
theorem Entered.report (h : Entered rs reported b b') :
    reported.slotsUpdated + reported.rowsInserted = rs.length ∧
    reported.rowsInserted =
      ((rs.map (·.slot.key)).toFinset.filter fun key => b.hasDay key = false).card ∧
    b'.dayCount = b.dayCount + reported.rowsInserted ∧
    reported.targetsUpdated = rs.countP (fun r => b.hasTarget r.outcome.target) := by
  cases h with
  | @ledger l l' hsheets =>
      have hsize := ledgerHand.size_history_enterAll rs l.sheets
      rw [← hsheets] at hsize
      exact ⟨ledgerHand.slotsUpdated_add_rowsInserted_enterAll rs _,
        ledgerHand.rowsInserted_enterAll rs _, hsize, ledgerHand.targetsUpdated_enterAll rs _⟩
  | @database db hthere =>
      have hsize := databaseHand.size_history_enterAll rs db.sheets
      rw [← Database.sheets_entered hthere] at hsize
      exact ⟨databaseHand.slotsUpdated_add_rowsInserted_enterAll rs _,
        databaseHand.rowsInserted_enterAll rs _, hsize, databaseHand.targetsUpdated_enterAll rs _⟩

/-- **Other days** are not written. -/
theorem Entered.keepsOtherDays (h : Entered rs reported b b') : b.KeepsOtherDays rs b' := by
  cases h with
  | @ledger l l' hsheets =>
      refine .ledger fun key hkey => ?_
      have hnone : rs.filter (fun r => ledgerHand.dayKey r.slot.key = key) = [] :=
        List.filter_eq_nil_iff.2 fun r hr heq => hkey r hr (of_decide_eq_true heq)
      have hfound := ledgerHand.find?_history_enterAll rs l.sheets key
      rw [hnone, ← hsheets] at hfound
      exact hfound
  | @database db hthere =>
      refine .database fun key hkey => ?_
      have hnone : rs.filter (fun r => databaseHand.dayKey r.slot.key = key) = [] :=
        List.filter_eq_nil_iff.2 fun r hr heq => hkey r hr (of_decide_eq_true heq)
      have hfound := databaseHand.find?_history_enterAll rs db.sheets key
      rw [hnone, ← Database.sheets_entered hthere] at hfound
      exact hfound

end Entered

variable {b b' : Backend} {rs : List OutcomeRecord} {report : BatchReport}

/-- The rows that a batch which is taken is to write can be read. -/
theorem hasDay_of_record (h : b.record rs = (b', .ok report)) {r : OutcomeRecord} (hr : r ∈ rs) :
    b.hasDay r.slot.key = (b.day? r.slot.key).isSome := by
  cases b with
  | ledger l => rfl
  | database db =>
      rw [record_database, Prod.mk.injEq] at h
      have haccepts := (Database.record_ok_iff.1 (Prod.ext rfl h.2)).1
      have htables := haccepts.hasTables.resolve_left (List.ne_nil_of_mem hr)
      have hobstacle := (Database.acceptsAll_iff htables).1 haccepts r hr
      have hread := Database.misfit?_eq_none_iff.1 (Database.slotObstacle?_eq_none_iff.1
        (Database.obstacle?_eq_none_iff.1 hobstacle).2).1
      show (db.sheets.history.find? _).isSome = ((db.sheets.history.find? _).bind _).isSome
      cases hfound : db.sheets.history.find? (HistoryRowKey.ofKey r.slot.key) with
      | none => rfl
      | some blob => exact (hread blob hfound).symm

/-- **A report accounts for every record.**  If a store takes a batch, whatever the
records name, each of them is reported as an update of a row or as a new row.  The new
rows are as many as the days of the batch that had none, and by so many the histories
have grown; the targets reported are those of the records whose target has a row.
After it the day of every record has a row of 1440 slots, where each minute holds the
last value that was written to it, or what it held before if none was: minutes that no
day has change nothing.  The rows of other days are what they were. -/
theorem report_accounts_for_every_record (h : b.record rs = (b', .ok report)) :
    report.slotsUpdated + report.rowsInserted = rs.length ∧
    report.rowsInserted =
      ((rs.map (·.slot.key)).toFinset.filter fun key => b.hasDay key = false).card ∧
    b'.dayCount = b.dayCount + report.rowsInserted ∧
    report.targetsUpdated = rs.countP (fun r => b.hasTarget r.outcome.target) ∧
    (∀ r ∈ rs, b.hasDay r.slot.key = (b.day? r.slot.key).isSome ∧
      ∃ row, b'.day? r.slot.key = some row ∧ row.slots.toList.length = 1440 ∧
        ∀ m < 1440, row.get m =
          match (rs.filter fun x => x.slot.key = r.slot.key ∧ x.slot.minute = m).getLast? with
          | some x => x.slot.value
          | none => DayHistory.slotOf (b.day? r.slot.key) m) ∧
    b.KeepsOtherDays rs b' := by
  have hentered := Entered.of_record h
  obtain ⟨hall, hinserted, hgrown, hupdated⟩ := hentered.report
  refine ⟨hall, hinserted, hgrown, hupdated, fun r hr => ⟨hasDay_of_record h hr, ?_⟩,
    hentered.keepsOtherDays⟩
  have hday := (Took.batch .nil h).day? r.slot.key
  rw [List.nil_append] at hday
  have hsome : (b'.day? r.slot.key).isSome := by
    rw [hday, isSome_writeAll]
    exact .inr (List.ne_nil_of_mem (List.mem_filter.2 ⟨hr, by simp⟩))
  obtain ⟨row, hrow⟩ := Option.isSome_iff_exists.1 hsome
  refine ⟨row, hrow, Vector.length_toList, fun m hm => ?_⟩
  have hslot := slotOf_writeAll (rs.filter (·.slot.key = r.slot.key)) (b.day? r.slot.key) hm
  have hfilter : (rs.filter (·.slot.key = r.slot.key)).filter (·.slot.minute = m) =
      rs.filter fun x => x.slot.key = r.slot.key ∧ x.slot.minute = m := by
    rw [List.filter_filter]
    exact List.filter_congr fun x _ => by simp [and_comm]
  rw [← hday, hrow, hfilter] at hslot
  exact hslot

/-- Three records name one day of a target that is not known.  The first is for a minute
that no day has, and begins the row; the others are for the same minute, and the last of
them stays. -/
theorem report_accounts_for_every_record_one_new_day :
    ∃ (b b' : Backend) (rs : List OutcomeRecord) (key : HistoryKey) (row : DayHistory),
      b.record rs = (b', .ok ⟨2, 2, 1⟩) ∧
      rs.map (fun r => (r.slot.key, r.slot.minute, r.slot.value)) =
        [(key, 1440, 5), (key, 3, 7), (key, 3, 9)] ∧
      rs.map (fun r => b.hasTarget r.outcome.target) = [true, false, true] ∧
      b.hasTarget key.target = false ∧ b.hasDay key = false ∧ b'.dayCount = 1 ∧
      b'.day? key = some row ∧ row.get 3 = 9 ∧ ∀ m < 1440, m ≠ 3 → row.get m = 0 := by
  let row : TargetRow := .ofTarget (.fresh default "peer:1" .ping)
  let db : Database := ⟨some ⟨(∅ : Table _ _).insert row.id row, []⟩, some ⟨∅, []⟩, [1]⟩
  let other : TargetId := ⟨List.replicate 32 1, rfl⟩
  let key : HistoryKey := ⟨other, .nil, .epoch⟩
  let known : Outcome := ⟨default, default, 7, none⟩
  let unknown : Outcome := ⟨other, default, 8, none⟩
  let rs : List OutcomeRecord :=
    [⟨known, ⟨key, 1440, 5⟩⟩, ⟨unknown, ⟨key, 3, 7⟩⟩, ⟨known, ⟨key, 3, 9⟩⟩]
  have haccepts : Database.AcceptsAll rs db :=
    (Database.acceptsAll_iff ⟨rfl, rfl⟩).2 (by decide +kernel)
  have hrecord : (Backend.database db).record rs =
      (.database (db.withSheets (databaseHand.enterAll rs db.sheets).1),
        .ok (databaseHand.enterAll rs db.sheets).2) := by
    rw [record_database, Database.record_ok_iff.2 ⟨haccepts, rfl, rfl⟩]
  obtain ⟨hall, hinserted, hgrown, hupdated, hdays, -⟩ := report_accounts_for_every_record hrecord
  have hnew : (databaseHand.enterAll rs db.sheets).2.rowsInserted = 1 :=
    hinserted.trans (by decide +kernel)
  have htargets : (databaseHand.enterAll rs db.sheets).2.targetsUpdated = 2 :=
    hupdated.trans (by decide +kernel)
  have hslots : (databaseHand.enterAll rs db.sheets).2.slotsUpdated = 2 := by
    rw [hnew] at hall
    exact Nat.succ.inj hall
  have hreport : (databaseHand.enterAll rs db.sheets).2 = ⟨2, 2, 1⟩ :=
    BatchReport.ext_counts htargets hslots hnew
  obtain ⟨-, written, hwritten, -, hminutes⟩ := hdays _ List.mem_cons_self
  rw [hreport] at hrecord
  refine ⟨_, _, rs, key, written, hrecord, rfl, by decide +kernel, by decide +kernel, rfl, ?_,
    hwritten, hminutes 3 (by decide), ?_⟩
  · rw [hgrown, hnew]
    rfl
  · intro m hm hne
    have hnone : rs.filter (fun x => x.slot.key = key ∧ x.slot.minute = m) = [] := by
      have hlate : 1440 ≠ m := by omega
      simp [rs, hlate, Ne.symm hne]
    have hminute := hminutes m hm
    rw [hnone] at hminute
    exact hminute

end Backend

end PeerWatch
