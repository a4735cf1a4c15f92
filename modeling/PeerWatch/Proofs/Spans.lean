import PeerWatch.Proofs.Readback

/-!
# Spans of days

A store shows of a span of days the rows that it keeps of them.  A ledger compares days by
the calendar.  A database has only their texts to compare, and finds between two texts the
rows whose texts stand there.  In plain years this comes to the same.  A year after 9999
has a sign in its text, and the sign stands before all digits: a span that ends in such a
year has no row of a plain year in it, although all these years are over by then.

* `Backend.Spans`, `Backend.Precedes` — how a store compares days;
* `Backend.Keeps.range` — what it shows of a span;
* `Backend.spans_iff`, `Backend.not_spans_of_late_end` — where this is the calendar, and
  where it is not;
* `Backend.spans_are_exact_in_plain_years`.
-/

namespace PeerWatch

open Calendar

namespace Backend

/-- A day lies between two others, as a store compares days. -/
def Spans (first last day : Day) : Backend → Prop
  | .ledger _ => first ≤ day ∧ day ≤ last
  | .database _ => first.text ≤ day.text ∧ day.text ≤ last.text

/-- A day lies before another, as a store compares days. -/
def Precedes (day later : Day) : Backend → Prop
  | .ledger _ => day < later
  | .database _ => day.text < later.text

variable {b : Backend} {t : History} {first last day later : Day}

section Comparing

/-- A store finds in a span the days of the calendar that lie in it, if it is a ledger, or
if the day is in a plain year and the span ends in no later one. -/
theorem spans_iff (hspan : first ≤ last)
    (hplain : ∀ db, b = .database db → last.civil.year ≤ 9999 ∧ day.HasPlainYear) :
    b.Spans first last day ↔ first ≤ day ∧ day ≤ last := by
  cases b with
  | ledger l => rfl
  | database db =>
      obtain ⟨hlast, hday⟩ := hplain db rfl
      have hfirst : first.civil.year ≤ 9999 := Int.le_trans (Day.year_le_of_le hspan) hlast
      have hend : day.text ≤ last.text ↔ day ≤ last := by
        by_cases hlate : last.HasPlainYear
        · exact Day.text_le_iff hday.2 hlate
        · -- the year before 0 in which the span ends comes first by either order
          have htext := Day.text_lt_of_not_plain hlate hday
          have hyear : ¬ day.civil.year ≤ last.civil.year := by
            intro hle
            have := hday.1
            exact hlate ⟨by omega, hlast⟩
          exact iff_of_false (String.not_le.2 htext) fun hle => hyear (Day.year_le_of_le hle)
      show first.text ≤ day.text ∧ day.text ≤ last.text ↔ _
      rw [Day.text_le_iff hfirst hday, hend]

/-- A store puts days in the order of the calendar, if it is a ledger, or if their years
are plain. -/
theorem precedes_iff
    (hplain : ∀ db, b = .database db → day.HasPlainYear ∧ later.HasPlainYear) :
    b.Precedes day later ↔ day < later := by
  cases b with
  | ledger l => rfl
  | database db =>
      obtain ⟨hday, hlater⟩ := hplain db rfl
      exact Day.text_lt_iff hday hlater

/-- **No day of a plain year** lies in a span that ends after the year 9999, as a database
compares days. -/
theorem not_spans_of_late_end {db : Database} (hlast : 9999 < last.civil.year)
    (hday : day.HasPlainYear) : ¬ (database db).Spans first last day := by
  intro hspan
  have hlate : ¬ last.HasPlainYear := fun hplain => Int.not_le.2 hlast hplain.2
  exact String.not_le.2 (Day.text_lt_of_not_plain hlate hday) hspan.2

end Comparing

section Showing

/-- A span that ends before it begins has nothing in it. -/
theorem Keeps.range_of_lt (h : b.Keeps t) (hkeyed : t.Keyed DayHistory.key) (target : TargetId)
    (owner : OwnerId) (hspan : last < first) : b.range target owner first last = .ok [] := by
  cases h with
  | @ledger l hhistory =>
      subst hhistory
      refine congrArg Except.ok (List.eq_nil_iff_forall_not_mem.2 fun row hrow => ?_)
      obtain ⟨-, -, -, hfirst, hlast⟩ := (Ledger.mem_range_iff hkeyed).1 hrow
      exact Int.not_le.2 hspan (Int.le_trans hfirst hlast)
  | database htable hmirrors =>
      show Database.range _ target owner first last = _
      rw [Database.range, if_pos hspan]

/-- **What a store shows of a span:** the rows it keeps of the days that it finds there, in
its order. -/
theorem Keeps.range (h : b.Keeps t) (hkeyed : t.Keyed DayHistory.key) (target : TargetId)
    (owner : OwnerId) (hspan : first ≤ last) :
    ∃ rows, b.range target owner first last = .ok rows ∧
      (∀ row, row ∈ rows ↔ t.find? row.key = some row ∧ row.key.target = target ∧
        row.key.owner = owner ∧ b.Spans first last row.key.day) ∧
      rows.Pairwise fun row row' => b.Precedes row.key.day row'.key.day := by
  cases h with
  | @ledger l hhistory =>
      subst hhistory
      exact ⟨_, rfl, fun row => Ledger.mem_range_iff hkeyed,
        Ledger.range_ascending hkeyed target owner first last⟩
  | @database db table htable hmirrors =>
      exact Database.range_of_mirrors htable hmirrors hkeyed target owner (Int.not_lt.2 hspan)

/-- Of a row that is kept something was told. -/
theorem exists_told_of_find?_historyOf {told : List (OwnerId × Outcome)} {key : HistoryKey}
    {row : DayHistory} (hrow : (historyOf told).find? key = some row) :
    ∃ o, (key.owner, o) ∈ told ∧ o.target = key.target ∧ o.capturedAt.day = key.day := by
  have hsome : ((historyOf told).find? key).isSome := by rw [hrow]; rfl
  rw [find?_historyOf, isSome_writeAll] at hsome
  obtain hnone | hne := hsome
  · cases hnone
  · have houtcomes : outcomesOf told key ≠ [] := fun hnil => hne (by rw [hnil]; rfl)
    obtain ⟨o, ho⟩ := List.exists_mem_of_ne_nil _ houtcomes
    exact ⟨o, mem_outcomesOf_iff.1 ho⟩

/-- **Spans are exact in plain years.**  Whatever batches a store has taken since it had no
histories, it shows of a span the rows it keeps of the days that it finds there, each once
and in its order, and nothing if the span ends before it begins.  In a ledger these are the
days of the calendar and this order is theirs.  So it is in a database whose rows of the
target and the owner are all of plain years, for a span that does not end after the year
9999; and of a span that ends later it shows none of these rows. -/
theorem spans_are_exact_in_plain_years {start : Backend} {told : List (OwnerId × Outcome)}
    (hstart : start.HasNoHistory) (htrace : RecordTrace start told b) (target : TargetId)
    (owner : OwnerId) (first last : Day) :
    ∃ rows, b.range target owner first last = .ok rows ∧
      (last < first → rows = []) ∧
      (first ≤ last → ∀ row, row ∈ rows ↔ (historyOf told).find? row.key = some row ∧
        row.key.target = target ∧ row.key.owner = owner ∧ b.Spans first last row.key.day) ∧
      rows.Pairwise (fun row row' => b.Precedes row.key.day row'.key.day) ∧
      ((∀ db, b = .database db → last.civil.year ≤ 9999 ∧
          ∀ o, (owner, o) ∈ told → o.target = target → o.capturedAt.day.HasPlainYear) →
        rows.Pairwise (fun row row' => row.key.day < row'.key.day) ∧
        ∀ row, row ∈ rows ↔ (historyOf told).find? row.key = some row ∧
          row.key.target = target ∧ row.key.owner = owner ∧
          first ≤ row.key.day ∧ row.key.day ≤ last) ∧
      (∀ db, b = .database db → 9999 < last.civil.year →
        (∀ o, (owner, o) ∈ told → o.target = target → o.capturedAt.day.HasPlainYear) →
        rows = []) := by
  have hkeeps := htrace.keeps hstart
  have hkeyed := keyed_historyOf told
  by_cases hspan : first ≤ last
  · obtain ⟨rows, hrange, hmem, hordered⟩ := hkeeps.range hkeyed target owner hspan
    have hnotlt : ¬ last < first := Int.not_lt.2 hspan
    -- the days of the rows are those of outcomes that were told
    have hplain : (∀ o, (owner, o) ∈ told → o.target = target → o.capturedAt.day.HasPlainYear) →
        ∀ row, (historyOf told).find? row.key = some row → row.key.target = target →
          row.key.owner = owner → row.key.day.HasPlainYear := by
      intro htold row hrow htarget howner
      obtain ⟨o, ho, hotarget, hday⟩ := exists_told_of_find?_historyOf hrow
      exact hday ▸ htold o (howner ▸ ho) (hotarget.trans htarget)
    refine ⟨rows, hrange, fun hlt => absurd hlt hnotlt, fun _ => hmem, hordered, ?_, ?_⟩
    · intro hexact
      constructor
      · refine hordered.imp_of_mem fun {row row'} hrow hrow' hlt => ?_
        obtain ⟨hfound, htarget, howner, -⟩ := (hmem row).1 hrow
        obtain ⟨hfound', htarget', howner', -⟩ := (hmem row').1 hrow'
        refine (precedes_iff fun db hdb => ?_).1 hlt
        obtain ⟨-, htold⟩ := hexact db hdb
        exact ⟨hplain htold row hfound htarget howner, hplain htold row' hfound' htarget' howner'⟩
      · intro row
        rw [hmem]
        refine and_congr_right fun hfound => and_congr_right fun htarget =>
          and_congr_right fun howner => spans_iff hspan fun db hdb => ?_
        obtain ⟨hlast, htold⟩ := hexact db hdb
        exact ⟨hlast, hplain htold row hfound htarget howner⟩
    · intro db hdb hlate htold
      subst hdb
      refine List.eq_nil_iff_forall_not_mem.2 fun row hrow => ?_
      obtain ⟨hfound, htarget, howner, hspans⟩ := (hmem row).1 hrow
      exact not_spans_of_late_end hlate (hplain htold row hfound htarget howner) hspans
  · have hlt : last < first := Int.not_le.1 hspan
    refine ⟨[], hkeeps.range_of_lt hkeyed target owner hlt, fun _ => rfl,
      fun hle => absurd hle hspan, .nil, fun _ => ⟨.nil, fun row => ?_⟩, fun _ _ _ _ => rfl⟩
    have hnone : ¬ (first ≤ row.key.day ∧ row.key.day ≤ last) := fun hsome =>
      hspan (Int.le_trans hsome.1 hsome.2)
    simp [hnone]

/-- A new database takes any outcome. -/
theorem recordTrace_new_database (owner : OwnerId) (o : Outcome) :
    RecordTrace (.database Database.blank.migrate) [(owner, o)]
      (recordOutcomes owner [o] (.database Database.blank.migrate)).1 := by
  have htaken : recordOutcomes owner [o] (.database Database.blank.migrate) =
      ((recordOutcomes owner [o] (.database Database.blank.migrate)).1, .ok ⟨0, 0, 1⟩) :=
    Prod.ext rfl (by rfl)
  exact .recorded .nil htaken

/-- A row of the first day of 1970 is shown of a span around that day. -/
theorem spans_are_exact_in_plain_years_one_row :
    ∃ (start b : Backend) (told : List (OwnerId × Outcome)) (rows : List DayHistory)
      (first last : Day), start.HasNoHistory ∧ RecordTrace start told b ∧ first < .epoch ∧
      .epoch < last ∧ b.range default .nil first last = .ok rows ∧
      ∃ row ∈ rows, row.key.day = .epoch := by
  let o : Outcome := ⟨default, default, 7, none⟩
  let row := DayHistory.write (SlotWrite.ofOutcome .nil o) none
  let first : Day := ⟨-400, by decide⟩
  let last : Day := ⟨400, by decide⟩
  have hstart : (Backend.database Database.blank.migrate).HasNoHistory := .database (by rfl)
  have htrace := recordTrace_new_database .nil o
  obtain ⟨rows, hrange, -, -, -, hexact, -⟩ :=
    spans_are_exact_in_plain_years hstart htrace default .nil first last
  obtain ⟨-, hmem⟩ := hexact fun db' _ => by
    refine ⟨by decide, fun o' ho' _ => ?_⟩
    obtain ⟨-, rfl⟩ := Prod.mk.injEq .. ▸ List.mem_singleton.1 ho'
    decide
  have hrow : row ∈ rows := (hmem row).2 ⟨by rfl, rfl, rfl, by decide, by decide⟩
  exact ⟨_, _, _, rows, first, last, hstart, htrace, by decide, by decide, hrange, row, hrow, rfl⟩

/-- The same row is not shown of a span that ends with the calendar. -/
theorem late_end_hides_row :
    ∃ (start b : Backend) (told : List (OwnerId × Outcome)) (row : DayHistory)
      (first last : Day), start.HasNoHistory ∧ RecordTrace start told b ∧
      (historyOf told).find? row.key = some row ∧ first ≤ row.key.day ∧ row.key.day ≤ last ∧
      b.range row.key.target row.key.owner first last = .ok [] := by
  let o : Outcome := ⟨default, default, 7, none⟩
  let row := DayHistory.write (SlotWrite.ofOutcome .nil o) none
  have hstart : (Backend.database Database.blank.migrate).HasNoHistory := .database (by rfl)
  have htrace := recordTrace_new_database .nil o
  have hspan : Day.epoch ≤ Day.last := by decide
  obtain ⟨rows, hrange, hmem, -⟩ :=
    (htrace.keeps hstart).range (keyed_historyOf _) default .nil hspan
  obtain rfl : rows = [] := by
    refine List.eq_nil_iff_forall_not_mem.2 fun row hrow => ?_
    obtain ⟨hfound, -, -, hspans⟩ := (hmem row).1 hrow
    obtain ⟨o', ho', -, hday⟩ := exists_told_of_find?_historyOf hfound
    obtain ⟨-, rfl⟩ := Prod.mk.injEq .. ▸ List.mem_singleton.1 ho'
    exact not_spans_of_late_end (by decide) (hday ▸ by decide) hspans
  exact ⟨_, _, _, row, .epoch, .last, hstart, htrace, by rfl, by decide, by decide, hrange⟩

end Showing

end Backend

end PeerWatch
