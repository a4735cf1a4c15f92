import PeerWatch.Pipeline.Recorder
import PeerWatch.Proofs.Tables

/-!
# Records entered in a store

The two stores differ in what they write, typed rows or raw ones, and agree in
what they do with a record: the row of its target is changed if there is one,
and the row of its day is written or begun.  Here that is said once, of any
`Hand` a store may write in, and followed through runs of any length.

* `find?_targets_enterAll`, `find?_history_enterAll` — what stands under a key
  depends on the records of that key alone, in their order;
* `enterAll_append` — how the records are cut into batches does not matter;
* `enterAll_eq_of_filter_eq` — nor does the order between targets, neither for
  the tables nor for the report.
-/

set_option linter.unusedSectionVars false

namespace PeerWatch

instance : Add BatchReport :=
  ⟨fun a b => ⟨a.targetsUpdated + b.targetsUpdated, a.slotsUpdated + b.slotsUpdated,
    a.rowsInserted + b.rowsInserted⟩⟩

namespace BatchReport

@[simp] theorem targetsUpdated_add (a b : BatchReport) :
    (a + b).targetsUpdated = a.targetsUpdated + b.targetsUpdated := rfl

@[simp] theorem slotsUpdated_add (a b : BatchReport) :
    (a + b).slotsUpdated = a.slotsUpdated + b.slotsUpdated := rfl

@[simp] theorem rowsInserted_add (a b : BatchReport) :
    (a + b).rowsInserted = a.rowsInserted + b.rowsInserted := rfl

/-- Reports with the same numbers are equal. -/
theorem ext_counts {a b : BatchReport} (ht : a.targetsUpdated = b.targetsUpdated)
    (hs : a.slotsUpdated = b.slotsUpdated) (hr : a.rowsInserted = b.rowsInserted) : a = b := by
  cases a
  cases b
  simp_all

theorem zero_add (a : BatchReport) : zero + a = a := by
  apply ext_counts <;> simp [zero]

theorem add_zero (a : BatchReport) : a + zero = a := by
  apply ext_counts <;> simp [zero]

theorem add_assoc (a b c : BatchReport) : a + b + c = a + (b + c) := by
  apply ext_counts <;> simp [Nat.add_assoc]

end BatchReport

/-- The tables of a store, in whatever form it keeps them. -/
structure Sheets (τ ρ κ δ : Type) [Ord τ] [Ord κ] where
  targets : Table τ ρ
  history : Table κ δ

/-- The hand a store writes in. -/
structure Hand (τ ρ κ δ : Type) where
  /-- The key a target is kept under. -/
  targetKey : TargetId → τ
  /-- The key a day is kept under. -/
  dayKey : HistoryKey → κ
  /-- The row of a target after an outcome. -/
  note : Outcome → ρ → ρ
  /-- The row of a day after a write, which begins it if there is none. -/
  write : SlotWrite → Option δ → δ
  /-- Targets are told apart. -/
  targetKey_inj : ∀ a b, targetKey a = targetKey b → a = b
  /-- Days are told apart. -/
  dayKey_inj : ∀ a b, dayKey a = dayKey b → a = b

namespace Hand

variable {τ ρ κ δ : Type} [Ord τ] [Std.TransOrd τ] [Std.LawfulEqOrd τ] [DecidableEq τ]
  [Ord κ] [Std.TransOrd κ] [Std.LawfulEqOrd κ] [DecidableEq κ]

/-- The tables after one record. -/
def enter (h : Hand τ ρ κ δ) (s : Sheets τ ρ κ δ) (r : OutcomeRecord) : Sheets τ ρ κ δ where
  targets := s.targets.modify (h.targetKey r.outcome.target) (h.note r.outcome)
  history := s.history.insert (h.dayKey r.slot.key)
    (h.write r.slot (s.history.find? (h.dayKey r.slot.key)))

/-- What is reported of one record. -/
def tally (h : Hand τ ρ κ δ) (s : Sheets τ ρ κ δ) (r : OutcomeRecord) : BatchReport where
  targetsUpdated := if s.targets.contains (h.targetKey r.outcome.target) then 1 else 0
  slotsUpdated := if s.history.contains (h.dayKey r.slot.key) then 1 else 0
  rowsInserted := if s.history.contains (h.dayKey r.slot.key) then 0 else 1

/-- The tables after some records, with the sum of what is reported of them. -/
def enterAll (h : Hand τ ρ κ δ) :
    List OutcomeRecord → Sheets τ ρ κ δ → Sheets τ ρ κ δ × BatchReport
  | [], s => (s, .zero)
  | r :: rest, s =>
    ((h.enterAll rest (h.enter s r)).1, h.tally s r + (h.enterAll rest (h.enter s r)).2)

/-- The row of a target after some outcomes. -/
def noteAll (h : Hand τ ρ κ δ) (rs : List OutcomeRecord) (row : ρ) : ρ :=
  rs.foldl (fun row r => h.note r.outcome row) row

/-- The row of a day after some writes, if there is one. -/
def writeAll (h : Hand τ ρ κ δ) (rs : List OutcomeRecord) (day? : Option δ) : Option δ :=
  rs.foldl (fun day? r => some (h.write r.slot day?)) day?

variable (h : Hand τ ρ κ δ)

/-- **Cuts do not matter.**  Records entered at one go or in two leave the same
tables, and the reports add up. -/
theorem enterAll_append (xs ys : List OutcomeRecord) (s : Sheets τ ρ κ δ) :
    h.enterAll (xs ++ ys) s =
      ((h.enterAll ys (h.enterAll xs s).1).1,
        (h.enterAll xs s).2 + (h.enterAll ys (h.enterAll xs s).1).2) := by
  induction xs generalizing s with
  | nil => simp [enterAll, BatchReport.zero_add]
  | cons r rest ih => simp [enterAll, ih, BatchReport.add_assoc]

/-- The row of a target shows the outcomes of that target, in their order. -/
theorem find?_targets_enterAll (rs : List OutcomeRecord) (s : Sheets τ ρ κ δ) (k : τ) :
    (h.enterAll rs s).1.targets.find? k =
      (s.targets.find? k).map
        (h.noteAll (rs.filter fun r => h.targetKey r.outcome.target = k)) := by
  induction rs generalizing s with
  | nil => exact Option.map_id'.symm
  | cons r rest ih =>
      have hstep : (h.enterAll (r :: rest) s).1 = (h.enterAll rest (h.enter s r)).1 := rfl
      rw [hstep, ih]
      by_cases hk : h.targetKey r.outcome.target = k
      · subst hk
        rw [List.filter_cons_of_pos (by simp), enter, Table.find?_modify, if_pos rfl,
          Option.map_map]
        rfl
      · rw [List.filter_cons_of_neg (by simpa using hk), enter, Table.find?_modify,
          if_neg (Ne.symm hk)]

/-- The row of a day shows the writes to that day, in their order. -/
theorem find?_history_enterAll (rs : List OutcomeRecord) (s : Sheets τ ρ κ δ) (k : κ) :
    (h.enterAll rs s).1.history.find? k =
      h.writeAll (rs.filter fun r => h.dayKey r.slot.key = k) (s.history.find? k) := by
  induction rs generalizing s with
  | nil => simp [enterAll, writeAll]
  | cons r rest ih =>
      have hstep : (h.enterAll (r :: rest) s).1 = (h.enterAll rest (h.enter s r)).1 := rfl
      rw [hstep, ih]
      by_cases hk : h.dayKey r.slot.key = k
      · subst hk
        rw [List.filter_cons_of_pos (by simp), enter, Table.find?_insert, if_pos rfl]
        rfl
      · rw [List.filter_cons_of_neg (by simpa using hk), enter, Table.find?_insert,
          if_neg (Ne.symm hk)]

/-- The histories do not depend on the rows of the targets. -/
theorem history_enterAll_congr (rs : List OutcomeRecord) {s s' : Sheets τ ρ κ δ}
    (hs : s.history = s'.history) :
    (h.enterAll rs s).1.history = (h.enterAll rs s').1.history := by
  refine Table.ext_find? fun k => ?_
  rw [find?_history_enterAll, find?_history_enterAll, hs]

/-- What an outcome does not show in, records do not show in. -/
theorem targets_enterAll_unseen {μ : Type} {look : ρ → μ}
    (hlook : ∀ o row, look (h.note o row) = look row) (rs : List OutcomeRecord)
    (s : Sheets τ ρ κ δ) : Table.AgreeOn look (h.enterAll rs s).1.targets s.targets := by
  have hnoteAll : ∀ (rs : List OutcomeRecord) (row : ρ), look (h.noteAll rs row) = look row := by
    intro rs
    induction rs with
    | nil => exact fun _ => rfl
    | cons r rest ih => exact fun row => (ih (h.note r.outcome row)).trans (hlook r.outcome row)
  intro k
  rw [find?_targets_enterAll, Option.map_map]
  exact congrArg (Option.map · (s.targets.find? k)) (funext fun row => hnoteAll _ row)

/-- Records change rows that look alike alike, if outcomes do. -/
theorem targets_enterAll_congr {μ : Type} {look : ρ → μ}
    (hlook : ∀ o row row', look row = look row' → look (h.note o row) = look (h.note o row'))
    (rs : List OutcomeRecord) {s s' : Sheets τ ρ κ δ}
    (hs : Table.AgreeOn look s.targets s'.targets) :
    Table.AgreeOn look (h.enterAll rs s).1.targets (h.enterAll rs s').1.targets := by
  have hnoteAll : ∀ (rs : List OutcomeRecord) (row row' : ρ), look row = look row' →
      look (h.noteAll rs row) = look (h.noteAll rs row') := by
    intro rs
    induction rs with
    | nil => exact fun _ _ hrow => hrow
    | cons r rest ih => exact fun row row' hrow => ih _ _ (hlook r.outcome row row' hrow)
  intro k
  rw [find?_targets_enterAll, find?_targets_enterAll]
  cases hfound : s.targets.find? k with
  | none =>
      have hk := hs k
      rw [hfound, Option.map_none, eq_comm, Option.map_eq_none_iff] at hk
      rw [hk]
  | some row =>
      obtain ⟨row', hfound', hrow⟩ := hs.exists_find? hfound
      rw [hfound', Option.map_some, Option.map_some, Option.map_some, Option.map_some,
        hnoteAll _ row row' hrow.symm]

/-- What holds of the rows of all targets, and of every row after an outcome if it
held before, holds of the rows after the records. -/
theorem forall_targets_enterAll {P : τ → ρ → Prop} {rs : List OutcomeRecord}
    (hnote : ∀ r ∈ rs, ∀ k row, P k row → P k (h.note r.outcome row)) {s : Sheets τ ρ κ δ}
    (hs : ∀ k row, s.targets.find? k = some row → P k row) :
    ∀ k row, (h.enterAll rs s).1.targets.find? k = some row → P k row := by
  induction rs generalizing s with
  | nil => exact hs
  | cons r rest ih =>
      refine ih (fun r' hr' => hnote r' (List.mem_cons_of_mem _ hr')) (s := h.enter s r) ?_
      intro k row hfound
      rw [enter, Table.find?_modify] at hfound
      split at hfound
      · obtain ⟨row', hrow', rfl⟩ := Option.map_eq_some_iff.1 hfound
        exact hnote r List.mem_cons_self k row' (hs k row' hrow')
      · exact hs k row hfound

/-- The targets counted are those of the records whose target had a row. -/
theorem targetsUpdated_enterAll (rs : List OutcomeRecord) (s : Sheets τ ρ κ δ) :
    (h.enterAll rs s).2.targetsUpdated =
      rs.countP fun r => s.targets.contains (h.targetKey r.outcome.target) := by
  induction rs generalizing s with
  | nil => rfl
  | cons r rest ih =>
      have hrest := ih (h.enter s r)
      simp only [enter, Table.contains_modify] at hrest
      simp only [enterAll, BatchReport.targetsUpdated_add, tally, List.countP_cons]
      rw [Nat.add_comm, ← hrest]
      rfl

/-- Every record wrote one slot, into a row that was there or into a new one. -/
theorem slotsUpdated_add_rowsInserted_enterAll (rs : List OutcomeRecord) (s : Sheets τ ρ κ δ) :
    (h.enterAll rs s).2.slotsUpdated + (h.enterAll rs s).2.rowsInserted = rs.length := by
  induction rs generalizing s with
  | nil => rfl
  | cons r rest ih =>
      have hrest := ih (h.enter s r)
      have hone : (h.tally s r).slotsUpdated + (h.tally s r).rowsInserted = 1 := by
        simp only [tally]
        split <;> rfl
      simp only [enterAll, BatchReport.slotsUpdated_add, BatchReport.rowsInserted_add,
        List.length_cons]
      omega

/-- The rows reported as new are those by which the history grew. -/
theorem size_history_enterAll (rs : List OutcomeRecord) (s : Sheets τ ρ κ δ) :
    (h.enterAll rs s).1.history.size = s.history.size + (h.enterAll rs s).2.rowsInserted := by
  induction rs generalizing s with
  | nil => rfl
  | cons r rest ih =>
      have hstep : (h.enter s r).history.size = s.history.size + (h.tally s r).rowsInserted := by
        rw [enter, Table.size_insert]
        rfl
      simp only [enterAll, BatchReport.rowsInserted_add]
      rw [ih, hstep, Nat.add_assoc]

/-- Sequences that agree on the outcomes of every single target contain the same
outcomes. -/
theorem perm_of_filter_target_eq {xs ys : List Outcome}
    (horder : ∀ target, xs.filter (·.target = target) = ys.filter (·.target = target)) :
    xs.Perm ys := by
  refine List.perm_iff_count.2 fun o => ?_
  have hcount : ∀ l : List Outcome, (l.filter (·.target = o.target)).count o = l.count o :=
    fun l => List.count_filter (by simp)
  rw [← hcount xs, ← hcount ys, horder]

/-- What is selected by a part that tells targets apart is the same in sequences
that agree on the outcomes of every single target. -/
theorem filter_eq_of_filter_target_eq {xs ys : List Outcome} {p : Outcome → Bool}
    (horder : ∀ target, xs.filter (·.target = target) = ys.filter (·.target = target))
    (hp : ∀ a b, p a → p b → a.target = b.target) : xs.filter p = ys.filter p := by
  by_cases hsome : ∃ o ∈ xs, p o
  · obtain ⟨o, _, ho⟩ := hsome
    -- all that is selected has one target, so selecting by target first loses nothing
    have hfirst : ∀ l : List Outcome, l.filter p = (l.filter (·.target = o.target)).filter p := by
      intro l
      rw [List.filter_filter]
      refine List.filter_congr fun a _ => ?_
      cases ha : p a with
      | false => rfl
      | true => simp [hp a o ha ho]
    rw [hfirst xs, hfirst ys, horder]
  · have hnone : ∀ o ∈ xs, ¬ p o := fun o ho hpo => hsome ⟨o, ho, hpo⟩
    have hperm := perm_of_filter_target_eq horder
    rw [List.filter_eq_nil_iff.2 hnone,
      List.filter_eq_nil_iff.2 fun o ho => hnone o (hperm.mem_iff.2 ho)]

/-- **Schedules do not matter.**  Outcomes of one owner that are entered in two
orders which agree on every single target leave the same tables and the same
report. -/
theorem enterAll_eq_of_filter_eq {xs ys : List Outcome}
    (horder : ∀ target, xs.filter (·.target = target) = ys.filter (·.target = target))
    (owner : OwnerId) (s : Sheets τ ρ κ δ) :
    h.enterAll (recordsOf owner xs) s = h.enterAll (recordsOf owner ys) s := by
  have hfilter : ∀ p : OutcomeRecord → Bool,
      (∀ a b, p (.ofOutcome owner a) → p (.ofOutcome owner b) → a.target = b.target) →
      (recordsOf owner xs).filter p = (recordsOf owner ys).filter p := by
    intro p hp
    have heq := filter_eq_of_filter_target_eq (p := p ∘ OutcomeRecord.ofOutcome owner) horder hp
    rw [recordsOf, recordsOf, List.filter_map, List.filter_map, heq]
  have htargets : (h.enterAll (recordsOf owner xs) s).1.targets =
      (h.enterAll (recordsOf owner ys) s).1.targets := by
    refine Table.ext_find? fun k => ?_
    rw [find?_targets_enterAll, find?_targets_enterAll, hfilter]
    intro a b ha hb
    have ha : h.targetKey a.target = k := of_decide_eq_true ha
    have hb : h.targetKey b.target = k := of_decide_eq_true hb
    exact h.targetKey_inj _ _ (ha.trans hb.symm)
  have hhistory : (h.enterAll (recordsOf owner xs) s).1.history =
      (h.enterAll (recordsOf owner ys) s).1.history := by
    refine Table.ext_find? fun k => ?_
    rw [find?_history_enterAll, find?_history_enterAll, hfilter]
    intro a b ha hb
    have ha : h.dayKey ⟨a.target, owner, a.capturedAt.day⟩ = k := of_decide_eq_true ha
    have hb : h.dayKey ⟨b.target, owner, b.capturedAt.day⟩ = k := of_decide_eq_true hb
    exact congrArg HistoryKey.target (h.dayKey_inj _ _ (ha.trans hb.symm))
  have hperm : (recordsOf owner xs).Perm (recordsOf owner ys) :=
    (perm_of_filter_target_eq horder).map _
  have hupdated : (h.enterAll (recordsOf owner xs) s).2.targetsUpdated =
      (h.enterAll (recordsOf owner ys) s).2.targetsUpdated := by
    rw [targetsUpdated_enterAll, targetsUpdated_enterAll, hperm.countP_eq]
  have hinserted : (h.enterAll (recordsOf owner xs) s).2.rowsInserted =
      (h.enterAll (recordsOf owner ys) s).2.rowsInserted := by
    have hx := h.size_history_enterAll (recordsOf owner xs) s
    have hy := h.size_history_enterAll (recordsOf owner ys) s
    rw [hhistory] at hx
    omega
  have hslots : (h.enterAll (recordsOf owner xs) s).2.slotsUpdated =
      (h.enterAll (recordsOf owner ys) s).2.slotsUpdated := by
    have hx := h.slotsUpdated_add_rowsInserted_enterAll (recordsOf owner xs) s
    have hy := h.slotsUpdated_add_rowsInserted_enterAll (recordsOf owner ys) s
    have hlength := hperm.length_eq
    omega
  refine Prod.ext ?_ (BatchReport.ext_counts hupdated hslots hinserted)
  cases hs : (h.enterAll (recordsOf owner xs) s).1
  cases hs' : (h.enterAll (recordsOf owner ys) s).1
  simp_all

end Hand

end PeerWatch
