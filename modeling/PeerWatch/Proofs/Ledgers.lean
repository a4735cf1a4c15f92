import PeerWatch.Proofs.DayRows
import PeerWatch.Proofs.Records

/-!
# The ledger's hand

A batch that is applied to a draft is entered record by record in what the
draft lets see: its own rows over those of the ledger.  Of the targets only
those were copied that the batch is about, which is enough, and laying the
draft down leaves what could be seen.

* `Draft.apply_spec` — one record;
* `Ledger.record_of_ok`, `record_of_error`, `record_of_no_fault` — a batch;
* `Ledger.mem_range_iff`, `range_ascending` — what a span of days shows.
-/

namespace PeerWatch

open Calendar

/-- The hand of a ledger: typed rows under typed keys. -/
def ledgerHand : Hand TargetId Target HistoryKey DayHistory where
  targetKey := id
  dayKey := id
  note o t := t.recorded o
  write := DayHistory.write
  targetKey_inj _ _ h := h
  dayKey_inj _ _ h := h

/-- The tables of a ledger. -/
def Ledger.sheets (l : Ledger) : Sheets TargetId Target HistoryKey DayHistory :=
  ⟨l.targets, l.history⟩

namespace Ledger

namespace Draft

/-- The tables as a draft lets see them. -/
def seen (d : Draft) : Sheets TargetId Target HistoryKey DayHistory :=
  ⟨d.base.targets.overlay d.targets, d.base.history.overlay d.history⟩

/-- The rows of some targets have been copied, as far as there are any. -/
def Covers (d : Draft) (ids : List TargetId) : Prop :=
  ∀ id ∈ ids, d.targets.contains id = d.base.targets.contains id

section Start

/-- Copying rows leaves the others. -/
theorem find?_targets_start (base : Ledger) (ids : List TargetId) (id : TargetId) :
    (start base ids).targets.find? id = if id ∈ ids then base.targets.find? id else none := by
  -- copying one row, by a function that a proof can name
  let copy (acc : Table TargetId Target) (id : TargetId) : Table TargetId Target :=
    (base.targets.find? id).elim acc (acc.insert id)
  have hstart : (start base ids).targets = ids.foldl copy ∅ := by
    refine congrArg (ids.foldl · ∅) (funext fun acc => funext fun id => ?_)
    show _ = (base.targets.find? id).elim acc (acc.insert id)
    cases base.targets.find? id with
    | none => rfl
    | some t => rfl
  have hfold : ∀ acc : Table TargetId Target, (ids.foldl copy acc).find? id =
      if id ∈ ids then (base.targets.find? id).or (acc.find? id) else acc.find? id := by
    clear hstart
    induction ids with
    | nil => intro acc; simp
    | cons head rest ih =>
        intro acc
        rw [List.foldl_cons, ih]
        by_cases heq : id = head
        · subst heq
          cases hbase : base.targets.find? id with
          | none => simp [copy, hbase]
          | some t => simp [copy, hbase, Table.find?_insert]
        · cases hbase : base.targets.find? head with
          | none => simp [copy, hbase, heq]
          | some t => simp [copy, hbase, heq, Table.find?_insert]
  rw [hstart, hfold]
  simp

/-- A draft that was just begun lets see the ledger as it is. -/
theorem seen_start (base : Ledger) (ids : List TargetId) : (start base ids).seen = base.sheets := by
  have htargets : base.targets.overlay (start base ids).targets = base.targets := by
    refine Table.ext_find? fun id => ?_
    rw [Table.find?_overlay, find?_targets_start]
    split
    · exact Option.or_self
    · rfl
  have hhistory : base.history.overlay (start base ids).history = base.history := rfl
  show Sheets.mk _ _ = Sheets.mk _ _
  rw [← htargets, ← hhistory]
  rfl

/-- A draft covers the targets that it was begun with. -/
theorem covers_start (base : Ledger) (ids : List TargetId) : (start base ids).Covers ids := by
  intro id hid
  have hfind := find?_targets_start base ids id
  rw [if_pos hid] at hfind
  simp only [Table.contains, hfind]
  rfl

end Start

section Step

/-- Of a target that is covered, the draft holds the row that is seen. -/
theorem Covers.find?_seen {d : Draft} {ids : List TargetId} (h : d.Covers ids) {id : TargetId}
    (hid : id ∈ ids) : d.targets.find? id = d.seen.targets.find? id := by
  have hcovers := h id hid
  rw [seen, Table.find?_overlay]
  cases hfind : d.targets.find? id with
  | some t => rfl
  | none =>
      simp only [Table.contains, hfind, Option.isSome_none] at hcovers
      have hnone := Option.isSome_eq_false_iff.1 hcovers.symm
      rw [Option.none_or, Option.isNone_iff_eq_none.1 hnone]

/-- Noting an outcome is entering it in the row of its target. -/
theorem noteOutcome_spec {d : Draft} {ids : List TargetId} (h : d.Covers ids) {o : Outcome}
    (ho : o.target ∈ ids) :
    (d.noteOutcome o).seen = ⟨d.seen.targets.modify o.target (·.recorded o), d.seen.history⟩ ∧
      (d.noteOutcome o).report =
        d.report + ⟨if d.seen.targets.contains o.target then 1 else 0, 0, 0⟩ ∧
      (d.noteOutcome o).base = d.base ∧ (d.noteOutcome o).Covers ids := by
  have hfind := h.find?_seen ho
  unfold noteOutcome
  cases hrow : d.targets.find? o.target with
  | none =>
      have hseen : d.seen.targets.find? o.target = none := hfind ▸ hrow
      refine ⟨?_, ?_, rfl, h⟩
      · rw [Table.modify_of_find?_eq_none hseen]
      · simp only [Table.contains, hseen]
        rfl
  | some t =>
      have hseen : d.seen.targets.find? o.target = some t := hfind ▸ hrow
      refine ⟨?_, ?_, rfl, ?_⟩
      · have hsame : d.base.targets.overlay (d.targets.insert o.target (t.recorded o)) =
            d.seen.targets.modify o.target (·.recorded o) := by
          refine Table.ext_find? fun id => ?_
          rw [Table.find?_overlay, Table.find?_insert, Table.find?_modify]
          split
          · next heq => rw [heq, hseen]; rfl
          · rw [seen, Table.find?_overlay]
        rw [← hsame]
        rfl
      · simp only [Table.contains, hseen]
        rfl
      · intro id hid
        show (d.targets.insert o.target (t.recorded o)).contains id = d.base.targets.contains id
        rw [Table.contains_insert, ← h id hid]
        by_cases heq : id = o.target
        · simp [heq, Table.contains, hrow]
        · simp [heq]

/-- Writing a slot is entering it in the row of its day. -/
theorem writeSlot_spec (d : Draft) (w : SlotWrite) :
    (d.writeSlot w).seen = ⟨d.seen.targets,
        d.seen.history.insert w.key (DayHistory.write w (d.seen.history.find? w.key))⟩ ∧
      (d.writeSlot w).report =
        d.report + ⟨0, if d.seen.history.contains w.key then 1 else 0,
          if d.seen.history.contains w.key then 0 else 1⟩ ∧
      (d.writeSlot w).base = d.base ∧ (d.writeSlot w).targets = d.targets := by
  have hrow : d.row? w.key = d.seen.history.find? w.key := (Table.find?_overlay ..).symm
  have hinsert : ∀ row : DayHistory, d.base.history.overlay (d.history.insert w.key row) =
      d.seen.history.insert w.key row := by
    intro row
    refine Table.ext_find? fun key => ?_
    rw [Table.find?_overlay, Table.find?_insert, Table.find?_insert]
    split
    · rfl
    · rw [seen, Table.find?_overlay]
  unfold writeSlot
  rw [hrow]
  cases hseen : d.seen.history.find? w.key with
  | some row =>
      refine ⟨?_, ?_, rfl, rfl⟩
      · rw [← hinsert]
        rfl
      · simp only [Table.contains, hseen]
        rfl
  | none =>
      refine ⟨?_, ?_, rfl, rfl⟩
      · rw [← hinsert]
        rfl
      · simp only [Table.contains, hseen]
        rfl

/-- **One record.**  Applying a record to a draft is entering it in what the
draft lets see. -/
theorem apply_spec {d : Draft} {ids : List TargetId} (h : d.Covers ids) {r : OutcomeRecord}
    (hr : r.outcome.target ∈ ids) :
    (d.apply r).seen = ledgerHand.enter d.seen r ∧
      (d.apply r).report = d.report + ledgerHand.tally d.seen r ∧
      (d.apply r).base = d.base ∧ (d.apply r).Covers ids := by
  obtain ⟨hseen, hreport, hbase, hcovers⟩ := noteOutcome_spec h hr
  obtain ⟨hseen', hreport', hbase', htargets⟩ := writeSlot_spec (d.noteOutcome r.outcome) r.slot
  refine ⟨?_, ?_, hbase'.trans hbase, ?_⟩
  · rw [apply, hseen', hseen]
    rfl
  · have htally : ledgerHand.tally d.seen r =
        ⟨if d.seen.targets.contains r.outcome.target then 1 else 0,
          if d.seen.history.contains r.slot.key then 1 else 0,
          if d.seen.history.contains r.slot.key then 0 else 1⟩ := rfl
    rw [apply, hreport', hreport, hseen, htally]
    apply BatchReport.ext_counts <;> simp
  · intro id hid
    rw [apply, htargets, hbase']
    exact hcovers id hid

end Step

/-- Applying records is entering them. -/
theorem foldl_apply_spec {ids : List TargetId} (rs : List OutcomeRecord) {d : Draft}
    (h : d.Covers ids) (hrs : ∀ r ∈ rs, r.outcome.target ∈ ids) :
    (rs.foldl apply d).seen = (ledgerHand.enterAll rs d.seen).1 ∧
      (rs.foldl apply d).report = d.report + (ledgerHand.enterAll rs d.seen).2 ∧
      (rs.foldl apply d).base = d.base := by
  induction rs generalizing d with
  | nil => exact ⟨rfl, (BatchReport.add_zero _).symm, rfl⟩
  | cons r rest ih =>
      obtain ⟨hseen, hreport, hbase, hcovers⟩ := apply_spec h (hrs r List.mem_cons_self)
      obtain ⟨hseen', hreport', hbase'⟩ :=
        ih hcovers fun r hr => hrs r (List.mem_cons_of_mem _ hr)
      rw [List.foldl_cons]
      refine ⟨?_, ?_, hbase'.trans hbase⟩
      · rw [hseen', hseen]
        rfl
      · rw [hreport', hreport, hseen, BatchReport.add_assoc]
        rfl

/-- A batch that does not fail is applied to its last record. -/
theorem applyAll_of_ok {faulty : Option Nat} {row : Nat} {rs : List OutcomeRecord} {d d' : Draft}
    (h : applyAll faulty row rs d = .ok d') : d' = rs.foldl apply d := by
  induction rs generalizing row d with
  | nil => exact (Except.ok.inj h).symm
  | cons r rest ih =>
      rw [applyAll] at h
      split at h
      · cases h
      · exact ih h

/-- Whether a batch fails, and with what, is a matter of its records and of the
row that is to fail. -/
theorem applyAll_cases (faulty : Option Nat) (row : Nat) (rs : List OutcomeRecord) :
    (∀ d, applyAll faulty row rs d = .ok (rs.foldl apply d)) ∨
      ∃ e, ∀ d, applyAll faulty row rs d = .error e := by
  induction rs generalizing row with
  | nil => exact .inl fun _ => rfl
  | cons r rest ih =>
      by_cases hfaulty : faulty = some row
      · refine .inr ⟨.rowFailed row r.outcome.target .injectedFault, fun d => ?_⟩
        rw [applyAll, if_pos hfaulty]
      · have hstep : ∀ d, applyAll faulty row (r :: rest) d =
            applyAll faulty (row + 1) rest (d.apply r) := fun d => by
          rw [applyAll, if_neg hfaulty]
        rcases ih (row + 1) with hok | ⟨e, herror⟩
        · exact .inl fun d => (hstep d).trans (hok (d.apply r))
        · exact .inr ⟨e, fun d => (hstep d).trans (herror (d.apply r))⟩

/-- A batch does not fail if no row is to. -/
theorem applyAll_none (row : Nat) (rs : List OutcomeRecord) (d : Draft) :
    applyAll none row rs d = .ok (rs.foldl apply d) := by
  induction rs generalizing row d with
  | nil => rfl
  | cons r rest ih =>
      rw [applyAll, if_neg (by simp)]
      exact ih (row + 1) (d.apply r)

end Draft

section Batches

/-- The ledger after a batch that was entered. -/
def entered (l : Ledger) (rs : List OutcomeRecord) : Ledger :=
  { l with targets := (ledgerHand.enterAll rs l.sheets).1.targets
           history := (ledgerHand.enterAll rs l.sheets).1.history
           faultyRow := none }

/-- What is laid down is the ledger with the records entered. -/
theorem commit_foldl_apply (l : Ledger) (rs : List OutcomeRecord) :
    let l' := { l with faultyRow := none }
    let draft := rs.foldl Draft.apply (Draft.start l' (rs.map (·.outcome.target)))
    draft.commit = l.entered rs ∧ draft.report = (ledgerHand.enterAll rs l.sheets).2 := by
  intro l' draft
  have hids : ∀ r ∈ rs, r.outcome.target ∈ rs.map (·.outcome.target) :=
    fun r hr => List.mem_map_of_mem hr
  obtain ⟨hseen, hreport, hbase⟩ :=
    Draft.foldl_apply_spec rs (Draft.covers_start l' (rs.map (·.outcome.target))) hids
  rw [Draft.seen_start] at hseen hreport
  have htargets := congrArg Sheets.targets hseen
  have hhistory := congrArg Sheets.history hseen
  refine ⟨?_, hreport.trans (BatchReport.zero_add _)⟩
  have hcommit : draft.commit =
      { draft.base with targets := draft.seen.targets, history := draft.seen.history } := rfl
  rw [hcommit, htargets, hhistory, hbase]
  rfl

/-- **A recorded batch** is entered to its last record. -/
theorem record_of_ok {l l' : Ledger} {rs : List OutcomeRecord} {report : BatchReport}
    (h : l.record rs = (l', .ok report)) :
    l' = l.entered rs ∧ report = (ledgerHand.enterAll rs l.sheets).2 := by
  obtain ⟨hcommit, hreport⟩ := commit_foldl_apply l rs
  unfold record at h
  dsimp only at h
  split at h
  · cases h
  · next draft hdraft =>
      obtain rfl := Draft.applyAll_of_ok hdraft
      obtain ⟨rfl, hr⟩ := Prod.mk.injEq .. ▸ h
      exact ⟨hcommit, (Except.ok.inj hr).symm.trans hreport⟩

/-- **A batch that failed** only spent the fault that was set for it. -/
theorem record_of_error {l l' : Ledger} {rs : List OutcomeRecord} {e : StoreError}
    (h : l.record rs = (l', .error e)) : l' = { l with faultyRow := none } := by
  unfold record at h
  dsimp only at h
  split at h
  · exact (congrArg Prod.fst h).symm
  · cases h

/-- A batch that can be applied to its last record is recorded. -/
theorem record_of_applied {l : Ledger} {rs : List OutcomeRecord}
    (h : ∀ d, Draft.applyAll l.faultyRow 0 rs d = .ok (rs.foldl Draft.apply d)) :
    l.record rs = (l.entered rs, .ok (ledgerHand.enterAll rs l.sheets).2) := by
  obtain ⟨hcommit, hreport⟩ := commit_foldl_apply l rs
  unfold record
  dsimp only
  rw [h]
  exact Prod.ext hcommit (congrArg Except.ok hreport)

/-- Without a fault a batch is recorded. -/
theorem record_of_no_fault {l : Ledger} (h : l.faultyRow = none) (rs : List OutcomeRecord) :
    l.record rs = (l.entered rs, .ok (ledgerHand.enterAll rs l.sheets).2) :=
  record_of_applied fun d => by rw [h, Draft.applyAll_none]

/-- Ledgers with the same fault do the same with a batch: all record it, or all
only spend the fault. -/
theorem record_cases (faulty : Option Nat) (rs : List OutcomeRecord) :
    (∀ l : Ledger, l.faultyRow = faulty →
      l.record rs = (l.entered rs, .ok (ledgerHand.enterAll rs l.sheets).2)) ∨
    ∃ e, ∀ l : Ledger, l.faultyRow = faulty →
      l.record rs = ({ l with faultyRow := none }, .error e) := by
  rcases Draft.applyAll_cases faulty 0 rs with hok | ⟨e, herror⟩
  · exact .inl fun l hfaulty => record_of_applied (hfaulty ▸ hok)
  · refine .inr ⟨e, fun l hfaulty => ?_⟩
    unfold record
    dsimp only
    rw [hfaulty, herror]

end Batches

section Spans

/-- The rows of a span are those of its target, its owner and its days. -/
theorem range_eq (l : Ledger) (target : TargetId) (owner : OwnerId) (first last : Day) :
    l.range target owner first last = (l.history.filter fun key _ =>
      key.target = target ∧ key.owner = owner ∧ first ≤ key.day ∧ key.day ≤ last).values := by
  have hsame : (l.history.filter fun key _ =>
      (compare (HistoryKey.mk target owner first) key).isLE ∧
        (compare key (HistoryKey.mk target owner last)).isLE) =
      l.history.filter fun key _ =>
        key.target = target ∧ key.owner = owner ∧ first ≤ key.day ∧ key.day ≤ last :=
    congrArg l.history.filter (funext fun _ => funext fun _ =>
      decide_eq_decide.2 HistoryKey.between_iff)
  unfold range
  rw [hsame]
  split
  · next hspan =>
      symm
      rw [Table.values, List.map_eq_nil_iff, Table.filter, List.filter_eq_nil_iff]
      intro e _ hkey
      obtain ⟨-, -, hfirst, hlast⟩ := of_decide_eq_true hkey
      exact Int.not_le.2 hspan (Int.le_trans hfirst hlast)
  · rfl

/-- So they are those that are kept of its days. -/
theorem mem_range_iff {l : Ledger} (h : l.history.Keyed DayHistory.key) {target : TargetId}
    {owner : OwnerId} {first last : Day} {row : DayHistory} :
    row ∈ l.range target owner first last ↔
      l.history.find? row.key = some row ∧ row.key.target = target ∧ row.key.owner = owner ∧
        first ≤ row.key.day ∧ row.key.day ≤ last := by
  rw [range_eq, (h.filter _).mem_values_iff, Table.find?_filter, Option.filter_eq_some_iff]
  simp

/-- The rows of a span stand in the order of their days. -/
theorem range_ascending {l : Ledger} (h : l.history.Keyed DayHistory.key) (target : TargetId)
    (owner : OwnerId) (first last : Day) :
    (l.range target owner first last).Pairwise fun a b => a.key.day < b.key.day := by
  rw [range_eq, Table.values, List.pairwise_map]
  refine List.Pairwise.imp_of_mem ?_ (Table.ascending _)
  intro e e' ha hb hlt
  obtain ⟨k, a⟩ := e
  obtain ⟨k', b⟩ := e'
  have hspan : ∀ {k : HistoryKey} {row : DayHistory},
      (k, row) ∈ (l.history.filter fun key _ => key.target = target ∧ key.owner = owner ∧
        first ≤ key.day ∧ key.day ≤ last).entries →
      row.key = k ∧ k.target = target ∧ k.owner = owner := by
    intro k row hmem
    obtain ⟨hmem, hkey⟩ := List.mem_filter.1 hmem
    have hkey := of_decide_eq_true hkey
    exact ⟨h k row (Table.find?_eq_some_iff.2 hmem), hkey.1, hkey.2.1⟩
  obtain ⟨hka, hta, hoa⟩ := hspan ha
  obtain ⟨hkb, htb, hob⟩ := hspan hb
  rw [hka, hkb]
  exact HistoryKey.day_lt_of_compare_lt (hta.trans htb.symm) (hoa.trans hob.symm) hlt

end Spans

end Ledger

end PeerWatch
