import PeerWatch.Proofs.Schedules

/-!
# Histories in either store

A database keeps a history when its raw rows mirror the rows of the history: a
row is found under the raw key if and only if there is one, and it is the bytes
of that one.  Entering a record preserves this.  What a store shows of a span
of days are the rows of the history it keeps.

* `Backend.Keeps` — a store that keeps a history;
* `Backend.Keeps.entered` — it keeps what is entered;
* `Database.range_of_mirrors` — what a database shows of a span;
* `Backend.Keeps.range_day` — what a store shows of one day.
-/

namespace PeerWatch

open Calendar

/-- A table of typed rows, each under its own key. -/
abbrev History := Table HistoryKey DayHistory

section Hands

/-- The raw hand writes the bytes of what the typed hand writes. -/
theorem databaseHand_write (w : SlotWrite) (row? : Option DayHistory) :
    databaseHand.write w (row?.map DayHistory.toBlob) = (DayHistory.write w row?).toBlob := by
  cases row? with
  | none => simp only [databaseHand, Option.map_none, Option.bind_none]
  | some row =>
      simp only [databaseHand, Option.map_some, Option.bind_some, DayHistory.ofBlob?_toBlob,
        DayHistory.write]
      rfl

variable {rows : Table HistoryRowKey (List UInt8)} {t : History}

/-- One record keeps the mirror. -/
theorem mirrors_write (h : Table.Mirrors HistoryRowKey.ofKey DayHistory.toBlob rows t)
    (w : SlotWrite) :
    Table.Mirrors HistoryRowKey.ofKey DayHistory.toBlob
      (rows.insert (HistoryRowKey.ofKey w.key)
        (databaseHand.write w (rows.find? (HistoryRowKey.ofKey w.key))))
      (t.insert w.key (DayHistory.write w (t.find? w.key))) := by
  rw [h.find, databaseHand_write]
  exact h.insert (fun _ _ => HistoryRowKey.ofKey_injective) w.key _

/-- Records keep the mirror, whatever stands in the tables of targets. -/
theorem mirrors_enterAll (rs : List OutcomeRecord)
    {s : Sheets (List UInt8) TargetRow HistoryRowKey (List UInt8)}
    {s' : Sheets TargetId Target HistoryKey DayHistory}
    (h : Table.Mirrors HistoryRowKey.ofKey DayHistory.toBlob s.history s'.history) :
    Table.Mirrors HistoryRowKey.ofKey DayHistory.toBlob (databaseHand.enterAll rs s).1.history
      (ledgerHand.enterAll rs s').1.history := by
  induction rs generalizing s s' with
  | nil => exact h
  | cons r rest ih => exact ih (mirrors_write h r.slot)

/-- Every row tells the key it is kept under, however many records are
entered. -/
theorem keyed_history_enterAll (rs : List OutcomeRecord)
    {s : Sheets TargetId Target HistoryKey DayHistory} (h : s.history.Keyed DayHistory.key) :
    (ledgerHand.enterAll rs s).1.history.Keyed DayHistory.key := by
  induction rs generalizing s with
  | nil => exact h
  | cons r rest ih =>
      refine ih (h.insert ?_)
      exact DayHistory.key_write fun row hrow => h _ row hrow

end Hands

section Spans

/-- Raw rows of one target and one owner stand in the order of the texts of their
days. -/
theorem HistoryRowKey.day_lt_of_compare_lt {a b : HistoryRowKey} (htarget : a.target = b.target)
    (howner : a.owner = b.owner) (h : compare a b = .lt) : a.day < b.day := by
  have h : (compare a.target b.target).then
      ((compare a.owner b.owner).then (compare a.day b.day)) = .lt := h
  have hbytes : compare b.target b.target = .eq := Std.ReflCmp.compare_self
  have howners : compare b.owner b.owner = .eq := Std.ReflCmp.compare_self
  rw [htarget, howner, hbytes, howners] at h
  exact compareOfLessAndEq_eq_lt.1 h

/-- Rows of one target and one owner are decoded into themselves. -/
theorem Database.decodeHistory_map {target : TargetId} {owner : OwnerId} {rows : List DayHistory}
    (h : ∀ row ∈ rows, row.key.target = target ∧ row.key.owner = owner) :
    decodeHistory target owner (rows.map fun row => (HistoryRowKey.ofKey row.key, row.toBlob)) =
      .ok rows := by
  induction rows with
  | nil => rfl
  | cons row rest ih =>
      obtain ⟨rfl, rfl⟩ := h row List.mem_cons_self
      have hrest := ih fun row hrow => h row (List.mem_cons_of_mem _ hrow)
      have hday : (HistoryRowKey.ofKey row.key).day = row.key.day.text := rfl
      simp only [List.map_cons, decodeHistory, hday, Day.parse_text, decodeBlob,
        DayHistory.ofBlob?_toBlob, hrest]
      rfl

/-- The entries of a table that mirrors a history are rows of the history. -/
theorem exists_map_of_mirrors {rows : Table HistoryRowKey (List UInt8)} {t : History}
    (h : Table.Mirrors HistoryRowKey.ofKey DayHistory.toBlob rows t)
    (hkeyed : t.Keyed DayHistory.key) {entries : List (HistoryRowKey × List UInt8)}
    (hentries : ∀ e ∈ entries, e ∈ rows.entries) :
    ∃ days : List DayHistory,
      entries = days.map fun row => (HistoryRowKey.ofKey row.key, row.toBlob) := by
  induction entries with
  | nil => exact ⟨[], rfl⟩
  | cons e rest ih =>
      obtain ⟨days, rfl⟩ := ih fun e he => hentries e (List.mem_cons_of_mem _ he)
      have hfound : rows.find? e.1 = some e.2 :=
        Table.find?_eq_some_iff.2 (hentries e List.mem_cons_self)
      obtain ⟨key, hkey⟩ := h.keys e.1 (by simp [Table.contains, hfound])
      rw [hkey, h.find] at hfound
      obtain ⟨row, hrow, hblob⟩ := Option.map_eq_some_iff.1 hfound
      refine ⟨row :: days, ?_⟩
      rw [List.map_cons, hkeyed key row hrow, ← hkey, hblob]

/-- **What a database shows of a span** are the rows of the history whose days
lie in it by their texts, in the order of these. -/
theorem Database.range_of_mirrors {db : Database} {table : HistoryTable} {t : History}
    (htable : db.history = some table)
    (h : Table.Mirrors HistoryRowKey.ofKey DayHistory.toBlob table.rows t)
    (hkeyed : t.Keyed DayHistory.key) (target : TargetId) (owner : OwnerId) {first last : Day}
    (hspan : ¬ last < first) :
    ∃ rows, db.range target owner first last = .ok rows ∧
      (∀ row, row ∈ rows ↔ t.find? row.key = some row ∧ row.key.target = target ∧
        row.key.owner = owner ∧ first.text ≤ row.key.day.text ∧ row.key.day.text ≤ last.text) ∧
      rows.Pairwise fun a b => a.key.day.text < b.key.day.text := by
  have hle : ∀ a b : String, (compare a b).isLE ↔ a ≤ b := fun _ _ =>
    isLE_compareOfLessAndEq String.le_antisymm String.not_le String.le_total
  let selected := table.rows.filter fun key _ =>
    key.target = target.bytes ∧ key.owner = owner.text
      ∧ (compare first.text key.day).isLE ∧ (compare key.day last.text).isLE
  have hentries : ∀ e ∈ selected.entries, e ∈ table.rows.entries :=
    fun e he => (List.mem_filter.1 he).1
  obtain ⟨rows, hrows⟩ := exists_map_of_mirrors h hkeyed hentries
  have hmem : ∀ row, row ∈ rows ↔ t.find? row.key = some row ∧ row.key.target = target ∧
      row.key.owner = owner ∧ first.text ≤ row.key.day.text ∧ row.key.day.text ≤ last.text := by
    intro row
    have hselected : row ∈ rows ↔ (HistoryRowKey.ofKey row.key, row.toBlob) ∈ selected.entries := by
      rw [hrows, List.mem_map]
      constructor
      · intro hrow
        exact ⟨row, hrow, rfl⟩
      · intro hmem
        rcases hmem with ⟨row', hrow', heq⟩
        obtain ⟨hkey, hblob⟩ := Prod.mk.injEq .. ▸ heq
        rwa [← DayHistory.eq_of_toBlob_eq (HistoryRowKey.ofKey_injective hkey) hblob]
    have hfound : (t.find? row.key).map DayHistory.toBlob = some row.toBlob ↔
        t.find? row.key = some row := by
      constructor
      · intro hblob
        obtain ⟨row', hrow', hblob⟩ := Option.map_eq_some_iff.1 hblob
        rwa [DayHistory.eq_of_toBlob_eq (hkeyed _ _ hrow') hblob] at hrow'
      · intro hrow
        rw [hrow, Option.map_some]
    have htarget : row.key.target.bytes = target.bytes ↔ row.key.target = target :=
      ⟨TargetId.eq_of_bytes_eq, congrArg TargetId.bytes⟩
    have howner : row.key.owner.text = owner.text ↔ row.key.owner = owner :=
      ⟨OwnerId.text_injective, congrArg OwnerId.text⟩
    rw [hselected, ← Table.find?_eq_some_iff, Table.find?_filter, Option.filter_eq_some_iff, h.find,
      hfound]
    simp only [HistoryRowKey.ofKey, htarget, howner, hle, decide_eq_true_eq]
  refine ⟨rows, ?_, hmem, ?_⟩
  · rw [range, if_neg hspan, htable]
    show decodeHistory target owner selected.entries = .ok rows
    rw [hrows]
    exact decodeHistory_map fun row hrow => ⟨((hmem row).1 hrow).2.1, ((hmem row).1 hrow).2.2.1⟩
  · have hascending := selected.ascending
    unfold Ascending at hascending
    rw [hrows, List.pairwise_map] at hascending
    refine hascending.imp_of_mem ?_
    intro a b ha hb hlt
    obtain ⟨_, hta, hoa, _⟩ := (hmem a).1 ha
    obtain ⟨_, htb, hob, _⟩ := (hmem b).1 hb
    have htargets : (HistoryRowKey.ofKey a.key).target = (HistoryRowKey.ofKey b.key).target :=
      congrArg TargetId.bytes (hta.trans htb.symm)
    have howners : (HistoryRowKey.ofKey a.key).owner = (HistoryRowKey.ofKey b.key).owner :=
      congrArg OwnerId.text (hoa.trans hob.symm)
    have hlt : compare (HistoryRowKey.ofKey a.key) (HistoryRowKey.ofKey b.key) = .lt := hlt
    have hdays := HistoryRowKey.day_lt_of_compare_lt htargets howners hlt
    simpa only [HistoryRowKey.ofKey] using hdays

end Spans

namespace Backend

/-- A store that keeps a history, in its own form. -/
inductive Keeps (t : History) : Backend → Prop
  | ledger {l : Ledger} (h : l.history = t) : Keeps t (.ledger l)
  | database {db : Database} {table : HistoryTable} (htable : db.history = some table)
      (h : Table.Mirrors HistoryRowKey.ofKey DayHistory.toBlob table.rows t) :
      Keeps t (.database db)

/-- A store keeps what is entered. -/
theorem Keeps.entered {t : History} {rs : List OutcomeRecord} {report : BatchReport} {a b : Backend}
    (h : Keeps t a) (hentered : Entered rs report a b) :
    Keeps (ledgerHand.enterAll rs ⟨∅, t⟩).1.history b := by
  cases hentered with
  | @ledger l l' hsheets =>
      cases h with
      | ledger hhistory =>
          have hsame : (⟨∅, t⟩ : Sheets TargetId Target HistoryKey DayHistory).history =
              l.sheets.history := hhistory.symm
          refine .ledger ?_
          rw [ledgerHand.history_enterAll_congr rs hsame, ← hsheets]
          rfl
  | @database db htables =>
      cases h with
      | @database _ table htable hmirrors =>
          have hhistory : (db.withSheets (databaseHand.enterAll rs db.sheets).1).history =
              some { table with rows := (databaseHand.enterAll rs db.sheets).1.history } := by
            simp only [Database.withSheets, htable, Option.map_some]
          have hrows : db.sheets.history = table.rows := by
            simp only [Database.sheets, htable, Option.map_some, Option.getD_some]
          exact .database hhistory (mirrors_enterAll rs (hrows ▸ hmirrors))

/-- A list that has exactly the members of an option. -/
theorem eq_toList_of_mem_iff {rows : List DayHistory} {row? : Option DayHistory}
    (hnodup : rows.Nodup) (hmem : ∀ row, row ∈ rows ↔ row? = some row) : rows = row?.toList := by
  cases rows with
  | nil =>
      cases row? with
      | none => rfl
      | some row => exact absurd ((hmem row).2 rfl) (by simp)
  | cons row rest =>
      have hrow := (hmem row).1 List.mem_cons_self
      have hrest : rest = [] := by
        refine List.eq_nil_iff_forall_not_mem.2 fun row' hrow' => ?_
        have hsame := (hmem row').1 (List.mem_cons_of_mem _ hrow')
        rw [hrow, Option.some.injEq] at hsame
        exact (List.nodup_cons.1 hnodup).1 (hsame ▸ hrow')
      rw [hrow, hrest]
      rfl

/-- **What a store shows of one day** is the row it keeps, if there is one. -/
theorem Keeps.range_day {t : History} {b : Backend} (h : Keeps t b)
    (hkeyed : t.Keyed DayHistory.key) (target : TargetId) (owner : OwnerId) (day : Day) :
    b.range target owner day day = .ok (t.find? ⟨target, owner, day⟩).toList := by
  have hfound : ∀ row : DayHistory, t.find? ⟨target, owner, day⟩ = some row ↔
      t.find? row.key = some row ∧ row.key = ⟨target, owner, day⟩ := by
    intro row
    constructor
    · intro hrow
      have hkey := hkeyed _ row hrow
      exact ⟨hkey ▸ hrow, hkey⟩
    · intro hmem
      rcases hmem with ⟨hrow, hkey⟩
      rwa [← hkey]
  have hkey : ∀ key : HistoryKey, key = ⟨target, owner, day⟩ ↔
      key.target = target ∧ key.owner = owner ∧ key.day = day := by
    intro key
    cases key
    simp
  cases h with
  | @ledger l hhistory =>
      subst hhistory
      have hascending := Ledger.range_ascending hkeyed target owner day day
      have hnodup : (l.range target owner day day).Nodup := by
        refine hascending.imp ?_
        intro a b hlt heq
        subst heq
        exact Int.lt_irrefl _ hlt
      refine congrArg Except.ok (eq_toList_of_mem_iff hnodup fun row => ?_)
      rw [Ledger.mem_range_iff hkeyed, hfound, hkey]
      have hday : day ≤ row.key.day ∧ row.key.day ≤ day ↔ row.key.day = day := by
        rw [Day.eq_iff_number]
        show day.number ≤ row.key.day.number ∧ row.key.day.number ≤ day.number ↔ _
        omega
      rw [hday]
  | @database db table htable hmirrors =>
      have hspan : ¬ day < day := Int.lt_irrefl day.number
      obtain ⟨rows, hrange, hmem, hascending⟩ :=
        Database.range_of_mirrors htable hmirrors hkeyed target owner hspan
      have hnodup : rows.Nodup := by
        refine hascending.imp ?_
        intro a b hlt heq
        subst heq
        exact String.lt_irrefl _ hlt
      show db.range target owner day day = _
      rw [hrange, eq_toList_of_mem_iff hnodup fun row => ?_]
      rw [hmem, hfound, hkey]
      have hday : day.text ≤ row.key.day.text ∧ row.key.day.text ≤ day.text ↔
          row.key.day = day := by
        constructor
        · intro hmem
          rcases hmem with ⟨hfirst, hlast⟩
          exact Day.text_injective (String.le_antisymm hlast hfirst)
        · intro heq
          subst heq
          exact ⟨String.le_refl _, String.le_refl _⟩
      rw [hday]

end Backend

end PeerWatch
