import PeerWatch.Proofs.Databases
import PeerWatch.Proofs.Ledgers

/-!
# Batches and schedules

What the recorder commits depends on how the probes of different targets were
interleaved, and the cuts between batches depend on its clock.  What is in the
store in the end depends on neither.

* `Backend.Entered` — a store into which some records were entered;
* `recordOutcomes_entered` — one batch;
* `recordBatches` — batch after batch, with the sum of what is reported;
* `recordBatches_of_filter_eq` — schedules do not matter.
-/

namespace PeerWatch

namespace Backend

theorem record_ledger (l : Ledger) (rs : List OutcomeRecord) :
    (ledger l).record rs = (.ledger (l.record rs).1, (l.record rs).2) := rfl

theorem record_database (db : Database) (rs : List OutcomeRecord) :
    (database db).record rs = (.database (db.record rs).1, (db.record rs).2) := rfl

/-- A store that some records turned into another, with the given report. -/
inductive Entered (rs : List OutcomeRecord) : BatchReport → Backend → Backend → Prop
  /-- The records are in the ledger, whatever became of its switches. -/
  | ledger {l l' : Ledger} (h : l'.sheets = (ledgerHand.enterAll rs l.sheets).1) :
      Entered rs (ledgerHand.enterAll rs l.sheets).2 (.ledger l) (.ledger l')
  /-- The records are in the tables of the database, which are there. -/
  | database {db : Database} (h : rs = [] ∨ db.HasTables) :
      Entered rs (databaseHand.enterAll rs db.sheets).2 (.database db)
        (.database (db.withSheets (databaseHand.enterAll rs db.sheets).1))

/-- Stores of one kind with equal tables of targets and of histories. -/
inductive SameTables : Backend → Backend → Prop
  | ledger {l l' : Ledger} (htargets : l.targets = l'.targets) (hhistory : l.history = l'.history) :
      SameTables (.ledger l) (.ledger l')
  | database {db db' : Database} (htargets : db.targets = db'.targets)
      (hhistory : db.history = db'.history) : SameTables (.database db) (.database db')

theorem Entered.nil (b : Backend) : Entered [] .zero b b := by
  cases b with
  | ledger l => exact .ledger rfl
  | database db =>
      have hentered : Entered [] .zero (.database db) (.database (db.withSheets db.sheets)) :=
        .database (.inl rfl)
      rwa [Database.withSheets_sheets] at hentered

/-- The records that a store takes are entered. -/
theorem Entered.of_record {rs : List OutcomeRecord} {b b' : Backend} {report : BatchReport}
    (h : b.record rs = (b', .ok report)) : Entered rs report b b' := by
  cases b with
  | ledger l =>
      rw [record_ledger, Prod.mk.injEq] at h
      obtain ⟨rfl, hreport⟩ := h
      have hrecord : l.record rs = ((l.record rs).1, .ok report) := Prod.ext rfl hreport
      obtain ⟨hleft, rfl⟩ := Ledger.record_of_ok hrecord
      exact .ledger (congrArg Ledger.sheets hleft)
  | database db =>
      rw [record_database, Prod.mk.injEq] at h
      obtain ⟨rfl, hreport⟩ := h
      have hrecord : db.record rs = ((db.record rs).1, .ok report) := Prod.ext rfl hreport
      obtain ⟨haccepts, rfl, hleft⟩ := Database.record_ok_iff.1 hrecord
      rw [hleft]
      exact .database (Database.AcceptsAll.hasTables haccepts)

/-- Records entered in two goes are entered. -/
theorem Entered.append {xs ys : List OutcomeRecord} {r r' : BatchReport} {a b c : Backend}
    (h : Entered xs r a b) (h' : Entered ys r' b c) : Entered (xs ++ ys) (r + r') a c := by
  cases h with
  | @ledger l l' hsheets =>
      cases h' with
      | @ledger l' l'' hsheets' =>
          have happend := ledgerHand.enterAll_append xs ys l.sheets
          rw [← hsheets] at happend
          have hreport := congrArg Prod.snd happend
          simp only at hreport
          rw [← hreport]
          exact .ledger (hsheets'.trans (congrArg Prod.fst happend).symm)
  | @database db htables =>
      cases h' with
      | @database db' htables' =>
          have hsheets := Database.sheets_entered htables
          have happend := databaseHand.enterAll_append xs ys db.sheets
          have hleft := congrArg Prod.fst happend
          have hreport := congrArg Prod.snd happend
          simp only at hleft hreport
          rw [hsheets, Database.withSheets_withSheets, ← hleft, ← hreport]
          refine .database ?_
          rcases htables with rfl | htables
          · rcases htables' with rfl | htables'
            · exact .inl rfl
            · have hsame : db.withSheets (databaseHand.enterAll [] db.sheets).1 = db :=
                Database.withSheets_sheets db
              exact .inr (hsame ▸ htables')
          · exact .inr htables

/-- The same records leave the same tables and the same report. -/
theorem Entered.same {rs : List OutcomeRecord} {r r' : BatchReport} {start a b : Backend}
    (h : Entered rs r start a) (h' : Entered rs r' start b) : a.SameTables b ∧ r = r' := by
  cases h with
  | ledger hsheets =>
      cases h' with
      | ledger hsheets' =>
          have heq := hsheets.trans hsheets'.symm
          exact ⟨.ledger (congrArg Sheets.targets heq) (congrArg Sheets.history heq), rfl⟩
  | database =>
      cases h' with
      | database => exact ⟨.database rfl rfl, rfl⟩

/-- Only the order of the outcomes of each single target matters. -/
theorem Entered.of_filter_eq {owner : OwnerId} {xs ys : List Outcome} {r : BatchReport}
    {a b : Backend}
    (horder : ∀ target, xs.filter (·.target = target) = ys.filter (·.target = target))
    (h : Entered (recordsOf owner xs) r a b) : Entered (recordsOf owner ys) r a b := by
  cases h with
  | ledger hsheets =>
      rw [ledgerHand.enterAll_eq_of_filter_eq horder] at hsheets ⊢
      exact .ledger hsheets
  | database htables =>
      rw [databaseHand.enterAll_eq_of_filter_eq horder]
      refine .database (htables.imp_left ?_)
      intro hnil
      have hperm : (recordsOf owner xs).Perm (recordsOf owner ys) :=
        (Hand.perm_of_filter_target_eq horder).map _
      rw [hnil] at hperm
      exact hperm.symm.eq_nil

end Backend

/-- A store is told of a batch unless there is nothing in it. -/
theorem recordOutcomes_cases {owner : OwnerId} {outcomes : List Outcome} {b b' : Backend}
    {result : Except PipelineError BatchReport}
    (h : recordOutcomes owner outcomes b = (b', result)) :
    (outcomes = [] ∧ b' = b ∧ result = .ok .zero) ∨
      ∃ answer, b.record (recordsOf owner outcomes) = (b', answer) ∧
        result = answer.mapError .persist := by
  unfold recordOutcomes at h
  split at h
  · next hempty =>
      obtain ⟨rfl, rfl⟩ := Prod.mk.injEq .. ▸ h
      exact .inl ⟨List.isEmpty_iff.1 hempty, rfl, rfl⟩
  · obtain ⟨rfl, rfl⟩ := Prod.mk.injEq .. ▸ h
    exact .inr ⟨_, rfl, rfl⟩

/-- **One batch** that the store takes is entered. -/
theorem recordOutcomes_entered {owner : OwnerId} {outcomes : List Outcome} {b b' : Backend}
    {report : BatchReport} (h : recordOutcomes owner outcomes b = (b', .ok report)) :
    Backend.Entered (recordsOf owner outcomes) report b b' := by
  obtain ⟨rfl, rfl, hreport⟩ | ⟨answer, hrecord, hresult⟩ := recordOutcomes_cases h
  · rw [Except.ok.inj hreport]
    exact .nil b'
  · cases answer with
    | error e => cases hresult
    | ok report' =>
        rw [Except.ok.inj hresult]
        exact .of_record hrecord

/-- A ledger for which no fault is set takes every batch. -/
theorem recordOutcomes_of_no_fault {l : Ledger} (h : l.faultyRow = none) (owner : OwnerId)
    (outcomes : List Outcome) :
    recordOutcomes owner outcomes (.ledger l) =
      (.ledger (l.entered (recordsOf owner outcomes)),
        .ok (ledgerHand.enterAll (recordsOf owner outcomes) l.sheets).2) := by
  have hrecord := Ledger.record_of_no_fault h (recordsOf owner outcomes)
  unfold recordOutcomes
  split
  · next hempty =>
      obtain rfl := List.isEmpty_iff.1 hempty
      have hsame : l.entered [] = l := by
        cases l
        subst h
        rfl
      show (Backend.ledger l, Except.ok BatchReport.zero) = (.ledger (l.entered []), .ok .zero)
      rw [hsame]
  · simp only [Backend.record, hrecord]
    rfl

/-- Batches recorded one after another as long as the store takes them, with the
sum of what it reports. -/
def recordBatches (owner : OwnerId) :
    List (List Outcome) → Backend → Except PipelineError (Backend × BatchReport)
  | [], b => .ok (b, .zero)
  | batch :: rest, b =>
    match recordOutcomes owner batch b with
    | (_, .error e) => .error e
    | (b', .ok report) => (recordBatches owner rest b').map fun (b'', total) => (b'', report + total)

/-- **A run of batches** that the store takes is entered as if it were one. -/
theorem recordBatches_entered {owner : OwnerId} {batches : List (List Outcome)} {b b' : Backend}
    {total : BatchReport} (h : recordBatches owner batches b = .ok (b', total)) :
    Backend.Entered (recordsOf owner batches.flatten) total b b' := by
  induction batches generalizing b total with
  | nil =>
      obtain ⟨rfl, rfl⟩ := Prod.mk.injEq .. ▸ Except.ok.inj h
      exact .nil b
  | cons batch rest ih =>
      rw [recordBatches] at h
      split at h
      · cases h
      · next b₁ report hbatch =>
          cases hrest : recordBatches owner rest b₁ with
          | error e => rw [hrest] at h; cases h
          | ok result =>
              obtain ⟨b₂, total'⟩ := result
              rw [hrest] at h
              obtain ⟨rfl, rfl⟩ := Prod.mk.injEq .. ▸ Except.ok.inj h
              have happend := (recordOutcomes_entered hbatch).append (ih hrest)
              rwa [recordsOf, recordsOf, ← List.map_append] at happend

/-- A ledger for which no fault is set takes every run of batches. -/
theorem recordBatches_of_no_fault {l : Ledger} (h : l.faultyRow = none) (owner : OwnerId)
    (batches : List (List Outcome)) :
    ∃ b total, recordBatches owner batches (.ledger l) = .ok (b, total) := by
  induction batches generalizing l with
  | nil => exact ⟨_, _, rfl⟩
  | cons batch rest ih =>
      have hfree : (l.entered (recordsOf owner batch)).faultyRow = none := rfl
      obtain ⟨b, total, hrest⟩ := ih hfree
      rw [recordBatches, recordOutcomes_of_no_fault h]
      simp only [hrest]
      exact ⟨_, _, rfl⟩

/-- **Schedules do not matter.**  Take two runs of batches from the same store
that hold the outcomes of each single target in the same order, however those
of different targets are interleaved and wherever the batches are cut.  If the
store takes both, it ends with the same tables, and what it reported adds up to
the same. -/
theorem recordBatches_of_filter_eq {owner : OwnerId} {xs ys : List (List Outcome)}
    {start a b : Backend} {total total' : BatchReport}
    (horder : ∀ target,
      xs.flatten.filter (·.target = target) = ys.flatten.filter (·.target = target))
    (hxs : recordBatches owner xs start = .ok (a, total))
    (hys : recordBatches owner ys start = .ok (b, total')) :
    a.SameTables b ∧ total = total' := by
  have ha := (recordBatches_entered hxs).of_filter_eq horder
  have hb := recordBatches_entered hys
  exact ha.same hb

/-- An outcome of a second target comes between two of the first, or before both
of them and in a batch of its own. -/
theorem recordBatches_of_filter_eq_interleaved :
    ∃ (o₁ o₂ o₃ : Outcome) (a b : Backend) (total : BatchReport),
      o₁.target = o₃.target ∧ o₁.target ≠ o₂.target ∧
      recordBatches .nil [[o₁, o₂], [o₃]] (.ledger Ledger.empty) = .ok (a, total) ∧
      recordBatches .nil [[o₂], [], [o₁, o₃]] (.ledger Ledger.empty) = .ok (b, total) ∧
      a.SameTables b := by
  let other : TargetId := ⟨List.replicate 32 1, rfl⟩
  let o₁ : Outcome := ⟨default, default, 7, none⟩
  let o₂ : Outcome := ⟨other, default, 8, none⟩
  let o₃ : Outcome := ⟨default, default, 9, none⟩
  have hother : default ≠ other := by decide
  have horder : ∀ target, [[o₁, o₂], [o₃]].flatten.filter (·.target = target) =
      [[o₂], [], [o₁, o₃]].flatten.filter (·.target = target) := by
    intro target
    by_cases hfirst : default = target
    · subst hfirst
      rfl
    · simp [o₁, o₂, o₃, List.filter_cons, hfirst]
  obtain ⟨a, total, ha⟩ := recordBatches_of_no_fault (l := Ledger.empty) rfl .nil [[o₁, o₂], [o₃]]
  obtain ⟨b, total', hb⟩ :=
    recordBatches_of_no_fault (l := Ledger.empty) rfl .nil [[o₂], [], [o₁, o₃]]
  obtain ⟨hsame, rfl⟩ := recordBatches_of_filter_eq horder ha hb
  exact ⟨o₁, o₂, o₃, a, b, total, rfl, hother, ha, hb, hsame⟩

end PeerWatch
