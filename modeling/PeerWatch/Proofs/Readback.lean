import PeerWatch.Proofs.Histories

/-!
# Recorded history reads back

A recorder tells a store batch after batch what was observed; some of the
batches fail, and in between others may claim targets, put some in, have writes
refused or let them pass.  What the store shows of a day depends on the batches
it took and on nothing else, and of these on the last outcome of each minute.

* `RecordTrace` — what was told, from a first store to a last;
* `RecordTrace.keeps` — the history that is kept at every moment;
* `reading_of_find?_historyOf` — what a minute of it shows;
* `history_reads_back` — what the store shows.
-/

namespace PeerWatch

open Calendar

/-- Stores of one kind with the same rows of histories. -/
inductive Backend.SameHistory : Backend → Backend → Prop
  | ledger {l l' : Ledger} (h : l'.history = l.history) : SameHistory (.ledger l) (.ledger l')
  | database {db db' : Database} (h : db'.history.map (·.rows) = db.history.map (·.rows)) :
      SameHistory (.database db) (.database db')

/-- A store that has no rows of histories, but room for them. -/
inductive Backend.HasNoHistory : Backend → Prop
  | ledger {l : Ledger} (h : l.history = ∅) : HasNoHistory (.ledger l)
  | database {db : Database} (h : db.history.map (·.rows) = some ∅) : HasNoHistory (.database db)

/-- Batches that recorders told a store, each for its owner.  Listed are the
outcomes of those it took; those that failed leave no trace in the list, and
what others do to the store leaves its histories alone. -/
inductive RecordTrace (start : Backend) : List (OwnerId × Outcome) → Backend → Prop
  | nil : RecordTrace start [] start
  | recorded {told : List (OwnerId × Outcome)} {b b' : Backend} {owner : OwnerId}
      {outcomes : List Outcome} {report : BatchReport} :
      RecordTrace start told b → recordOutcomes owner outcomes b = (b', .ok report) →
      RecordTrace start (told ++ outcomes.map fun o => (owner, o)) b'
  | failed {told : List (OwnerId × Outcome)} {b b' : Backend} {owner : OwnerId}
      {outcomes : List Outcome} {e : PipelineError} :
      RecordTrace start told b → recordOutcomes owner outcomes b = (b', .error e) →
      RecordTrace start told b'
  | disturbed {told : List (OwnerId × Outcome)} {b b' : Backend} :
      RecordTrace start told b → b.SameHistory b' → RecordTrace start told b'

/-- The records of what was told. -/
def recordsTold (told : List (OwnerId × Outcome)) : List OutcomeRecord :=
  told.map fun (owner, o) => .ofOutcome owner o

/-- The history of what was told. -/
def historyOf (told : List (OwnerId × Outcome)) : History :=
  (ledgerHand.enterAll (recordsTold told) ⟨∅, ∅⟩).1.history

section Keeping

/-- Each row of the history told stands under its own key. -/
theorem keyed_historyOf (told : List (OwnerId × Outcome)) :
    (historyOf told).Keyed DayHistory.key :=
  keyed_history_enterAll _ Table.Keyed.empty

/-- What is told further is entered in the history of what was told. -/
theorem historyOf_append (told : List (OwnerId × Outcome)) (owner : OwnerId)
    (outcomes : List Outcome) :
    historyOf (told ++ outcomes.map fun o => (owner, o)) =
      (ledgerHand.enterAll (recordsOf owner outcomes) ⟨∅, historyOf told⟩).1.history := by
  have hrecords : recordsTold (told ++ outcomes.map fun o => (owner, o)) =
      recordsTold told ++ recordsOf owner outcomes := by
    simp [recordsTold, recordsOf]
  rw [historyOf, hrecords, ledgerHand.enterAll_append]
  exact ledgerHand.history_enterAll_congr _ rfl

/-- A store that does not take some records has the histories it had. -/
theorem Backend.SameHistory.of_record {rs : List OutcomeRecord} {b b' : Backend} {e : StoreError}
    (h : b.record rs = (b', .error e)) : b.SameHistory b' := by
  cases b with
  | ledger l =>
      rw [Backend.record_ledger, Prod.mk.injEq] at h
      obtain ⟨rfl, herror⟩ := h
      have hrecord : l.record rs = ((l.record rs).1, .error e) := Prod.ext rfl herror
      rw [Ledger.record_of_error hrecord]
      exact .ledger rfl
  | database db =>
      rw [Backend.record_database, Prod.mk.injEq] at h
      obtain ⟨rfl, herror⟩ := h
      have hrecord : db.record rs = ((db.record rs).1, .error e) := Prod.ext rfl herror
      rw [Database.record_of_error hrecord]
      exact .database rfl

/-- A batch that fails does not touch the histories. -/
theorem recordOutcomes_of_error {owner : OwnerId} {outcomes : List Outcome} {b b' : Backend}
    {e : PipelineError} (h : recordOutcomes owner outcomes b = (b', .error e)) :
    b.SameHistory b' := by
  obtain ⟨_, _, hresult⟩ | ⟨answer, hrecord, hresult⟩ := recordOutcomes_cases h
  · cases hresult
  · cases answer with
    | error e' => exact .of_record hrecord
    | ok report => cases hresult

/-- What a store keeps, any store with the same history keeps. -/
theorem Backend.Keeps.sameHistory {t : History} {b b' : Backend} (h : Keeps t b)
    (hsame : b.SameHistory b') : Keeps t b' := by
  cases hsame with
  | ledger hhistory =>
      cases h with
      | ledger ht => exact .ledger (hhistory.trans ht)
  | @database db db' hrows =>
      cases h with
      | @database _ table htable hmirrors =>
          rw [htable] at hrows
          obtain ⟨table', htable', hrows⟩ := Option.map_eq_some_iff.1 hrows
          exact .database htable' (hrows ▸ hmirrors)

/-- **The history of what was told is kept,** at every moment of a trace. -/
theorem RecordTrace.keeps {start b : Backend} {told : List (OwnerId × Outcome)}
    (hstart : start.HasNoHistory) (h : RecordTrace start told b) : b.Keeps (historyOf told) := by
  induction h with
  | nil =>
      cases hstart with
      | ledger hempty => exact .ledger hempty
      | database hempty =>
          obtain ⟨table, htable, hrows⟩ := Option.map_eq_some_iff.1 hempty
          exact .database htable (hrows ▸ Table.Mirrors.empty)
  | recorded _ hrecord ih =>
      rw [historyOf_append]
      exact ih.entered (recordOutcomes_entered hrecord)
  | failed _ hrecord ih => exact ih.sameHistory (recordOutcomes_of_error hrecord)
  | disturbed _ hsame ih => exact ih.sameHistory hsame

end Keeping

section Showing

/-- A minute holds the last of the writes to it, wherever the others go. -/
theorem slotOf_writeAll (rs : List OutcomeRecord) (row? : Option DayHistory) {m : Nat}
    (hm : m < minutesPerDay) :
    DayHistory.slotOf (ledgerHand.writeAll rs row?) m =
      match (rs.filter (·.slot.minute = m)).getLast? with
      | some r => r.slot.value
      | none => DayHistory.slotOf row? m := by
  induction rs generalizing row? with
  | nil => rfl
  | cons r rest ih =>
      have hstep : ledgerHand.writeAll (r :: rest) row? =
          ledgerHand.writeAll rest (some (DayHistory.write r.slot row?)) := rfl
      have hwritten : DayHistory.slotOf (some (DayHistory.write r.slot row?)) m =
          if m = r.slot.minute then r.slot.value else DayHistory.slotOf row? m :=
        DayHistory.get_write r.slot row? hm
      rw [hstep, ih, hwritten]
      by_cases heq : r.slot.minute = m
      · rw [List.filter_cons_of_pos (by simpa using heq), List.getLast?_cons, if_pos heq.symm]
        cases (rest.filter (·.slot.minute = m)).getLast? <;> rfl
      · rw [List.filter_cons_of_neg (by simpa using heq), if_neg (Ne.symm heq)]

/-- A minute shows the last of the writes to it. -/
theorem readingOf_writeAll {rs : List OutcomeRecord}
    (hminutes : ∀ r ∈ rs, r.slot.minute < minutesPerDay) (row? : Option DayHistory) (m : Nat) :
    DayHistory.readingOf (ledgerHand.writeAll rs row?) m =
      match (rs.filter (·.slot.minute = m)).getLast? with
      | some r => Slot.read r.slot.value
      | none => DayHistory.readingOf row? m := by
  rw [DayHistory.readingOf_eq, DayHistory.readingOf_eq]
  by_cases hm : m < minutesPerDay
  · rw [slotOf_writeAll rs row? hm]
    cases (rs.filter (·.slot.minute = m)).getLast? <;> rfl
  · have hnone : rs.filter (·.slot.minute = m) = [] := by
      refine List.filter_eq_nil_iff.2 fun r hr hminute => hm ?_
      exact of_decide_eq_true hminute ▸ hminutes r hr
    have hlate : minutesPerDay ≤ m := Nat.le_of_not_lt hm
    rw [hnone, DayHistory.slotOf_of_le _ hlate, DayHistory.slotOf_of_le _ hlate]
    rfl

/-- There is a row when something was written. -/
theorem isSome_writeAll (rs : List OutcomeRecord) (row? : Option DayHistory) :
    (ledgerHand.writeAll rs row?).isSome ↔ row?.isSome ∨ rs ≠ [] := by
  induction rs generalizing row? with
  | nil => simp [Hand.writeAll]
  | cons r rest ih =>
      have hstep : ledgerHand.writeAll (r :: rest) row? =
          ledgerHand.writeAll rest (some (DayHistory.write r.slot row?)) := rfl
      rw [hstep, ih]
      simp

/-- The outcomes an owner told of a target on a day, in the order in which they
were told. -/
def outcomesOf (told : List (OwnerId × Outcome)) (key : HistoryKey) : List Outcome :=
  (told.filter fun (owner, o) =>
    owner = key.owner ∧ o.target = key.target ∧ o.capturedAt.day = key.day).map (·.2)

/-- The outcomes of a key are those told by its owner, of its target and its day. -/
theorem mem_outcomesOf_iff {told : List (OwnerId × Outcome)} {key : HistoryKey} {o : Outcome} :
    o ∈ outcomesOf told key ↔
      (key.owner, o) ∈ told ∧ o.target = key.target ∧ o.capturedAt.day = key.day := by
  simp only [outcomesOf, List.mem_map, List.mem_filter, decide_eq_true_eq, Prod.exists]
  constructor
  · intro hsome
    rcases hsome with ⟨owner, o', ⟨hmem, rfl, htarget, hday⟩, rfl⟩
    exact ⟨hmem, htarget, hday⟩
  · intro hsome
    rcases hsome with ⟨hmem, htarget, hday⟩
    exact ⟨key.owner, o, ⟨hmem, rfl, htarget, hday⟩, rfl⟩

/-- The records of a day are those of the outcomes told of it. -/
theorem filter_recordsTold (told : List (OwnerId × Outcome)) (key : HistoryKey) :
    (recordsTold told).filter (·.slot.key = key) = recordsOf key.owner (outcomesOf told key) := by
  induction told with
  | nil => rfl
  | cons entry rest ih =>
      obtain ⟨owner, o⟩ := entry
      have hcons : recordsTold ((owner, o) :: rest) = .ofOutcome owner o :: recordsTold rest := rfl
      have hkey : (OutcomeRecord.ofOutcome owner o).slot.key =
          ⟨o.target, owner, o.capturedAt.day⟩ := rfl
      rw [hcons, outcomesOf]
      by_cases heq : (⟨o.target, owner, o.capturedAt.day⟩ : HistoryKey) = key
      · subst heq
        rw [List.filter_cons_of_pos (by simp [hkey]), List.filter_cons_of_pos (by simp), ih]
        rfl
      · have hother :
            ¬ (owner = key.owner ∧ o.target = key.target ∧ o.capturedAt.day = key.day) := by
          intro hsome
          rcases hsome with ⟨rfl, htarget, hday⟩
          exact heq (by rw [htarget, hday])
        rw [List.filter_cons_of_neg (by simpa [hkey] using heq),
          List.filter_cons_of_neg (by simpa using hother), ih]
        rfl

/-- **The row of a day** is what was written of the outcomes told of it. -/
theorem find?_historyOf (told : List (OwnerId × Outcome)) (key : HistoryKey) :
    (historyOf told).find? key =
      ledgerHand.writeAll (recordsOf key.owner (outcomesOf told key)) none := by
  rw [historyOf, ledgerHand.find?_history_enterAll, ← filter_recordsTold]
  rfl

/-- **A minute of a day** shows the last outcome told of it. -/
theorem reading_of_find?_historyOf {told : List (OwnerId × Outcome)} {key : HistoryKey}
    {row : DayHistory} (hrow : (historyOf told).find? key = some row) (m : Nat) :
    row.reading m =
      match ((outcomesOf told key).filter (·.capturedAt.minuteOfDay = m)).getLast? with
      | some o => o.shown
      | none => .noData := by
  have hminutes : ∀ r ∈ recordsOf key.owner (outcomesOf told key),
      r.slot.minute < minutesPerDay := by
    intro r hr
    obtain ⟨o, _, rfl⟩ := List.mem_map.1 hr
    exact o.capturedAt.minuteOfDay_lt
  have hreading := readingOf_writeAll hminutes none m
  rw [← find?_historyOf, hrow] at hreading
  have hfilter : (recordsOf key.owner (outcomesOf told key)).filter (·.slot.minute = m) =
      recordsOf key.owner ((outcomesOf told key).filter (·.capturedAt.minuteOfDay = m)) := by
    rw [recordsOf, recordsOf, List.filter_map]
    rfl
  rw [hfilter, recordsOf, List.getLast?_map] at hreading
  refine Eq.trans hreading ?_
  cases ((outcomesOf told key).filter (·.capturedAt.minuteOfDay = m)).getLast? with
  | some o => exact SlotWrite.read_ofOutcome key.owner o
  | none => rfl

end Showing

/-- **Recorded history reads back.**  Whatever recorders told a store that had
no histories, and whatever others did to it in between, it shows of a day a row
of 1440 slots if something that it took was observed on that day, and nothing
otherwise.  A minute of the row shows the last outcome that was observed in it
by that owner of that target, if there is one. -/
theorem history_reads_back {start b : Backend} {told : List (OwnerId × Outcome)}
    (hstart : start.HasNoHistory) (htrace : RecordTrace start told b) (target : TargetId)
    (owner : OwnerId) (day : Day) :
    ∃ rows, b.range target owner day day = .ok rows ∧ rows.length ≤ 1 ∧
      (rows ≠ [] ↔ ∃ o, (owner, o) ∈ told ∧ o.target = target ∧ o.capturedAt.day = day) ∧
      ∀ row ∈ rows, row.key = ⟨target, owner, day⟩ ∧ row.slots.toList.length = 1440 ∧
        ∀ m < 1440,
          (row.reading m = .noData ↔ ¬ ∃ o, (owner, o) ∈ told ∧ o.target = target ∧
            o.capturedAt.day = day ∧ o.capturedAt.minuteOfDay = m) ∧
          ∀ o, ((outcomesOf told ⟨target, owner, day⟩).filter
              (·.capturedAt.minuteOfDay = m)).getLast? = some o →
            row.reading m =
              if o.isSuccess then
                .latency (o.capturedAt.secondOfMinute / 4) (min (max o.latency.toNat 2) 1999)
              else .failed (o.capturedAt.secondOfMinute / 4) := by
  have hkeyed := keyed_historyOf told
  refine ⟨_, (htrace.keeps hstart).range_day hkeyed target owner day, Option.length_toList_le,
    ?_, ?_⟩
  · have htold : (∃ o, (owner, o) ∈ told ∧ o.target = target ∧ o.capturedAt.day = day) ↔
        outcomesOf told ⟨target, owner, day⟩ ≠ [] := by
      constructor
      · intro hsome
        rcases hsome with ⟨o, ho⟩
        exact List.ne_nil_of_mem (mem_outcomesOf_iff.2 ho)
      · intro hsome
        obtain ⟨o, ho⟩ := List.exists_mem_of_ne_nil _ hsome
        exact ⟨o, mem_outcomesOf_iff.1 ho⟩
    have hrows : ((historyOf told).find? ⟨target, owner, day⟩).toList ≠ [] ↔
        ((historyOf told).find? ⟨target, owner, day⟩).isSome := by
      cases (historyOf told).find? ⟨target, owner, day⟩ <;> simp
    rw [htold, hrows, find?_historyOf, isSome_writeAll]
    simp [recordsOf]
  · intro row hrow
    have hrow : (historyOf told).find? ⟨target, owner, day⟩ = some row := by simpa using hrow
    refine ⟨hkeyed _ _ hrow, Vector.length_toList, ?_⟩
    intro m hm
    have hreading := reading_of_find?_historyOf hrow m
    constructor
    · rw [hreading]
      have hnone : ((outcomesOf told ⟨target, owner, day⟩).filter
          (·.capturedAt.minuteOfDay = m)).getLast? = none ↔
          ¬ ∃ o, (owner, o) ∈ told ∧ o.target = target ∧ o.capturedAt.day = day ∧
            o.capturedAt.minuteOfDay = m := by
        rw [List.getLast?_eq_none_iff, List.filter_eq_nil_iff]
        simp only [mem_outcomesOf_iff, decide_eq_true_eq, not_exists, not_and, and_imp]
      rw [← hnone]
      cases ((outcomesOf told ⟨target, owner, day⟩).filter
          (·.capturedAt.minuteOfDay = m)).getLast? with
      | some o => simp [o.shown_ne_noData]
      | none => simp
    · intro o ho
      rw [hreading, ho]
      rfl

/-- The first batch fails and the second one is told: only that one shows. -/
theorem history_reads_back_after_fault :
    ∃ b rows, RecordTrace (.ledger { Ledger.empty with faultyRow := some 0 })
        [(.nil, ⟨default, default, 7, none⟩)] b ∧
      b.range default .nil .epoch .epoch = .ok rows ∧ rows.length = 1 ∧
      ∀ row ∈ rows, row.reading 0 = .latency 0 7 ∧ row.reading 1 = .noData := by
  have hfault : recordOutcomes .nil [⟨default, default, 9, none⟩]
      (.ledger { Ledger.empty with faultyRow := some 0 }) =
      (.ledger Ledger.empty, .error (.persist (.rowFailed 0 default .injectedFault))) := rfl
  have htaken := recordOutcomes_of_no_fault (l := Ledger.empty) rfl .nil
    [⟨default, default, 7, none⟩]
  have htold : RecordTrace (.ledger { Ledger.empty with faultyRow := some 0 })
      [(.nil, ⟨default, default, 7, none⟩)] _ := .recorded (.failed .nil hfault) htaken
  obtain ⟨rows, hrange, hle, hsome, hrows⟩ :=
    history_reads_back (.ledger rfl) htold default .nil .epoch
  have hne : rows ≠ [] := hsome.2 ⟨_, List.mem_singleton.2 rfl, rfl, by decide⟩
  refine ⟨_, rows, htold, hrange, ?_, ?_⟩
  · have := List.length_pos_iff.2 hne
    omega
  · intro row hrow
    obtain ⟨_, _, hreadings⟩ := hrows row hrow
    have hlast : ((outcomesOf [(.nil, ⟨default, default, 7, none⟩)] ⟨default, .nil, .epoch⟩).filter
        (·.capturedAt.minuteOfDay = 0)).getLast? = some ⟨default, default, 7, none⟩ := by decide
    refine ⟨(hreadings 0 (by decide)).2 _ hlast, (hreadings 1 (by decide)).1.2 ?_⟩
    intro hsome
    rcases hsome with ⟨o, ho, _, _, hminute⟩
    obtain ⟨_, rfl⟩ := Prod.mk.injEq .. ▸ List.mem_singleton.1 ho
    exact absurd hminute (by decide)

end PeerWatch
