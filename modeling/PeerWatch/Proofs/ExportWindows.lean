import PeerWatch.Export.Window
import PeerWatch.Proofs.Exports
import PeerWatch.Proofs.Spans

/-!
# The exported window and the store

What the prober leaves behind in the end is a file for each target, and the file is the
window of the store: it has the rows that the store keeps of the target and the owner in
the last days, each with its slots, in the order of the days, and no others.  A row of a
day that a record cannot tell spoils the file of its target and those after it, and not
those before it.

* `Backend.KeepsInOrder`, `Backend.KeepsInOrder.range` — what a store shows of a span;
* `Export.write_of_told`, `Export.write_of_untold` — what becomes of the rows of a target;
* `Export.writeFiles_append`, `Export.find?_filed` — the files of some targets;
* `Export.Holds` — a file that is the window of a target;
* `Export.exports_the_window`.
-/

namespace PeerWatch

open Calendar

/-- A store that keeps a history and shows it in the order of the days: any ledger, and a
database as long as its years are plain. -/
structure Backend.KeepsInOrder (t : History) (b : Backend) : Prop where
  keeps : b.Keeps t
  keyed : t.Keyed DayHistory.key
  plain : ∀ db, b = .database db → ∀ key row, t.find? key = some row → key.day.HasPlainYear

/-- **What a store shows of a span** that ends in a plain year: the rows it keeps of these
days, in their order. -/
theorem Backend.KeepsInOrder.range {t : History} {b : Backend} (h : b.KeepsInOrder t)
    (target : TargetId) (owner : OwnerId) {first last : Day} (hspan : first ≤ last)
    (hlast : last.HasPlainYear) :
    ∃ rows, b.range target owner first last = .ok rows ∧
      rows.Pairwise (fun a b => a.key.day < b.key.day) ∧
      ∀ row, row ∈ rows ↔ t.find? row.key = some row ∧ row.key.target = target ∧
        row.key.owner = owner ∧ first ≤ row.key.day ∧ row.key.day ≤ last := by
  obtain ⟨rows, hrange, hmem, hordered⟩ := h.keeps.range h.keyed target owner hspan
  have hplain : ∀ row ∈ rows, ∀ db, b = .database db → row.key.day.HasPlainYear :=
    fun row hrow db hdb => h.plain db hdb _ row ((hmem row).1 hrow).1
  refine ⟨rows, hrange, ?_, fun row => ?_⟩
  · refine hordered.imp_of_mem fun hrow hrow' hlt => ?_
    exact (Backend.precedes_iff fun db hdb =>
      ⟨hplain _ hrow db hdb, hplain _ hrow' db hdb⟩).1 hlt
  · rw [hmem]
    refine and_congr_right fun hrow => and_congr_right fun _ => and_congr_right fun _ => ?_
    exact Backend.spans_iff hspan fun db hdb => ⟨hlast.2, h.plain db hdb _ row hrow⟩

namespace Export

/-- The window begins so many days before today, today being one of them, or where the
calendar begins. -/
theorem number_windowStart (today : Day) (days : Nat) :
    (windowStart today days).number =
      max Day.first.number (today.number - ((max days 1 - 1 : Nat) : Int)) := by
  have hpred : max days 1 - 1 = days - 1 := by omega
  have hrange := today.inRange
  rw [hpred, windowStart, Day.back?, Day.ofNumber?]
  show _ = max firstNumber _
  split
  · next h =>
      rw [Option.getD_some]
      show today.number - _ = _
      omega
  · next h =>
      rw [Option.getD_none]
      show firstNumber = _
      omega

/-- A window does not begin after the day it ends with. -/
theorem windowStart_le (today : Day) (days : Nat) : windowStart today days ≤ today := by
  have hrange := today.inRange
  show (windowStart today days).number ≤ today.number
  rw [number_windowStart]
  show max firstNumber _ ≤ _
  omega

section Writing

variable {rows before after : List DayHistory} {row : DayHistory}

/-- Rows in order of days that can be told are written as their records. -/
theorem write_of_told (hordered : rows.Pairwise fun a b => a.key.day < b.key.day)
    (htold : ∀ row ∈ rows, isTold row.key.day) :
    ∃ records, write rows .unbounded = (⟨bytesOf records, none⟩, .ok rows.length) ∧
      rows.map Record.ofRow = records.map .ok := by
  have hsame : inOrder rows = rows := inOrder_of_pairwise (hordered.imp Int.le_of_lt)
  obtain ⟨records, hrecords⟩ := exists_records htold
  refine ⟨records, ?_, hrecords⟩
  exact write_of_records (by rw [hsame, hrecords]) []

/-- Writing ends at the first row whose day cannot be told. -/
theorem writeRows_of_untold (hbefore : ∀ row ∈ before, isTold row.key.day)
    (hrow : isTold row.key.day = false) (written : List UInt8) :
    (writeRows (before ++ row :: after) ⟨written, none⟩).2 =
      .error (.dayOutOfRange row.key.day) := by
  obtain ⟨records, hrecords⟩ := exists_records hbefore
  rw [writeRows_append_of_records _ hrecords]
  exact congrArg Prod.snd (writeRows_cons_of_untold _ hrow after)

/-- Records that fail to be written fail the whole export. -/
theorem write_of_fault {fault : Fault} {sink : Sink}
    (h : (writeRows (inOrder rows) sink).2 = .error fault) :
    (write rows sink).2 = .error fault := by
  unfold write
  split
  · next heq =>
      rw [heq] at h
      cases h
  · next heq =>
      rw [heq] at h
      rw [Except.error.inj h]

/-- Rows in order, one of which has a day that cannot be told, are not written: the first
of these days is complained of. -/
theorem write_of_untold (hordered : rows.Pairwise fun a b => a.key.day < b.key.day)
    (huntold : ∃ row ∈ rows, isTold row.key.day = false) :
    ∃ row ∈ rows, isTold row.key.day = false ∧
      (∀ other ∈ rows, isTold other.key.day = false → row.key.day ≤ other.key.day) ∧
      (write rows .unbounded).2 = .error (.dayOutOfRange row.key.day) := by
  have hsame : inOrder rows = rows := inOrder_of_pairwise (hordered.imp Int.le_of_lt)
  obtain ⟨row, hfind⟩ := Option.isSome_iff_exists.1
    (List.find?_isSome (p := fun row : DayHistory => !isTold row.key.day).2
      (by simpa using huntold))
  obtain ⟨hrow, before, after, rfl, hbefore⟩ := List.find?_eq_some_iff_append.1 hfind
  have hrow : isTold row.key.day = false := by simpa using hrow
  have hbefore : ∀ row ∈ before, isTold row.key.day := by simpa using hbefore
  refine ⟨row, List.mem_append_right _ List.mem_cons_self, hrow, ?_, ?_⟩
  · intro other hother huntold
    rcases List.mem_append.1 hother with hother | hother
    · rw [hbefore other hother] at huntold
      cases huntold
    rcases List.mem_cons.1 hother with rfl | hother
    · exact Int.le_refl _
    · have hlater := (List.pairwise_append.1 hordered).2.1
      exact Int.le_of_lt (List.rel_of_pairwise_cons hlater hother)
  · refine write_of_fault ?_
    rw [hsame]
    exact writeRows_of_untold hbefore hrow []

end Writing

/-- Targets have files of their own. -/
theorem fileName_injective {a b : TargetId} (h : fileName a = fileName b) : a = b := by
  have htext : a.text.toList = b.text.toList := by
    have hlist := congrArg String.toList h
    rw [fileName, fileName, String.toList_append, String.toList_append] at hlist
    exact List.append_cancel_right hlist
  rw [TargetId.text, TargetId.text, String.toList_ofList, String.toList_ofList] at htext
  exact TargetId.eq_of_bytes_eq (Hex.encode_injective htext)

section Files

variable {rows : TargetId → Except StoreError (List DayHistory)} {dir : Directory}
variable {before after : List TargetId} {target : TargetId}

/-- Whether the rows of a target can be read and written. -/
def IsWritable (rows : TargetId → Except StoreError (List DayHistory)) (target : TargetId) : Prop :=
  ∃ history, rows target = .ok history ∧
    (write history .unbounded).2 = .ok history.length

/-- What the file of a target is to hold. -/
def content (rows : TargetId → Except StoreError (List DayHistory)) (target : TargetId) :
    List UInt8 :=
  match rows target with
  | .ok history => (write history .unbounded).1.written
  | .error _ => []

/-- A directory with the files of some targets. -/
def filed (rows : TargetId → Except StoreError (List DayHistory)) (targets : List TargetId)
    (dir : Directory) : Directory :=
  { dir with
    files := targets.foldl (fun files target => files.insert (fileName target)
      (content rows target)) dir.files }

/-- **The files of some targets** are written, before those of others. -/
theorem writeFiles_append (hbefore : ∀ target ∈ before, IsWritable rows target)
    (hfree : ∀ target ∈ before, fileName target ∉ dir.taken) (written : Nat) :
    writeFiles rows written (before ++ after) dir =
      writeFiles rows (written + before.length) after (filed rows before dir) := by
  induction before generalizing written dir with
  | nil => rfl
  | cons target rest ih =>
      obtain ⟨history, hhistory, hwrite⟩ := hbefore target List.mem_cons_self
      obtain ⟨sink, hsink⟩ : ∃ sink, write history .unbounded = (sink, .ok history.length) :=
        ⟨_, Prod.ext rfl hwrite⟩
      have hcontent : content rows target = sink.written := by
        simp only [content, hhistory, hsink]
      have hname : dir.taken.contains (fileName target) = false := by
        simpa using hfree target List.mem_cons_self
      have hfirst : writeFiles rows written (target :: (rest ++ after)) dir =
          writeFiles rows (written + 1) (rest ++ after) (filed rows [target] dir) := by
        simp only [writeFiles, hhistory, hsink, hname, filed, List.foldl_cons, List.foldl_nil,
          hcontent, Bool.false_eq_true, if_false]
      have hfree' : ∀ other ∈ rest, fileName other ∉ (filed rows [target] dir).taken :=
        fun other h => hfree other (List.mem_cons_of_mem _ h)
      have hrest := ih (fun other h => hbefore other (List.mem_cons_of_mem _ h)) hfree'
        (written + 1)
      rw [List.cons_append, hfirst, List.length_cons, Nat.add_comm rest.length, ← Nat.add_assoc]
      exact hrest

/-- A target whose rows cannot be written ends it all. -/
theorem writeFiles_of_fault {history : List DayHistory} {fault : Fault}
    (hhistory : rows target = .ok history)
    (hwrite : (write history .unbounded).2 = .error fault) (written : Nat) :
    writeFiles rows written (target :: after) dir = (dir, .error (.encode fault)) := by
  obtain ⟨sink, hsink⟩ : ∃ sink, write history .unbounded = (sink, .error fault) :=
    ⟨_, Prod.ext rfl hwrite⟩
  simp only [writeFiles, hhistory, hsink]

/-- Under other names there is what was there. -/
theorem find?_filed_of_not_mem {targets : List TargetId} {name : String}
    (h : name ∉ targets.map fileName) :
    (filed rows targets dir).files.find? name = dir.files.find? name := by
  induction targets generalizing dir with
  | nil => rfl
  | cons target rest ih =>
      rw [List.map_cons, List.mem_cons, not_or] at h
      show (filed rows rest (filed rows [target] dir)).files.find? name = _
      rw [ih h.2]
      show (dir.files.insert _ _).find? name = _
      rw [Table.find?_insert, if_neg h.1]

/-- Under the name of a target there is its file. -/
theorem find?_filed {targets : List TargetId} (h : target ∈ targets) :
    (filed rows targets dir).files.find? (fileName target) = some (content rows target) := by
  induction targets generalizing dir with
  | nil => cases h
  | cons first rest ih =>
      show (filed rows rest (filed rows [first] dir)).files.find? (fileName target) = _
      by_cases hrest : target ∈ rest
      · exact ih hrest
      · have hname : fileName target ∉ rest.map fileName := by
          intro hmem
          obtain ⟨other, hother, hsame⟩ := List.mem_map.1 hmem
          exact hrest (fileName_injective hsame ▸ hother)
        rw [find?_filed_of_not_mem hname]
        obtain rfl : target = first := (List.mem_cons.1 h).resolve_right hrest
        show (dir.files.insert _ _).find? _ = _
        rw [Table.find?_insert, if_pos rfl]

end Files

variable {t : History} {b : Backend} {owner : OwnerId} {target : TargetId} {first last : Day}

/-- Whether the rows kept of a target can all be told, as far as they lie in a window. -/
def TellsAll (t : History) (owner : OwnerId) (first last : Day) (target : TargetId) : Prop :=
  ∀ day row, t.find? ⟨target, owner, day⟩ = some row → first ≤ day → day ≤ last →
    Day.epoch ≤ day ∧ day ≤ lastTold

/-- **A file that is the window of a target:** its records stand in the order of their days,
each says when its day begins, and there is one with some day and slots if and only if the
day lies in the window and these are the slots kept of it. -/
def Holds (t : History) (owner : OwnerId) (first last : Day) (target : TargetId)
    (bytes : List UInt8) : Prop :=
  ∃ records, read bytes = .ok records ∧ records.Pairwise (fun a b => a.day < b.day) ∧
    (∀ r ∈ records, (r.timestamp.toNat : Int) = r.day.number * 86400) ∧
    ∀ day slots, (∃ r ∈ records, r.day = day ∧ r.slots = slots) ↔
      first ≤ day ∧ day ≤ last ∧ (t.find? ⟨target, owner, day⟩).map (·.slots) = some slots

/-- The file of a target whose days can be told is its window. -/
theorem holds_content (h : b.KeepsInOrder t) (hspan : first ≤ last) (hlast : last.HasPlainYear)
    (htold : TellsAll t owner first last target) :
    IsWritable (fun target => b.range target owner first last) target ∧
      Holds t owner first last target
        (content (fun target => b.range target owner first last) target) := by
  obtain ⟨rows, hrange, hordered, hmem⟩ := h.range target owner hspan hlast
  have hkey : ∀ row ∈ rows, row.key = ⟨target, owner, row.key.day⟩ := by
    intro row hrow
    obtain ⟨_, htarget, howner, _⟩ := (hmem row).1 hrow
    rw [← htarget, ← howner]
  have htold' : ∀ row ∈ rows, isTold row.key.day := by
    intro row hrow
    obtain ⟨hfound, _, _, hfirst, hlast⟩ := (hmem row).1 hrow
    rw [hkey row hrow] at hfound
    exact decide_eq_true (htold row.key.day row hfound hfirst hlast)
  obtain ⟨records, hwrite, hrecords⟩ := write_of_told hordered htold'
  refine ⟨⟨rows, hrange, by rw [hwrite]⟩, records, ?_, ?_, ?_, fun day slots => ?_⟩
  · simp only [content, hrange, hwrite]
    exact read_eq_ok_iff.2 rfl
  · have hdays : records.map Record.day = rows.map (·.key.day) :=
      map_eq_of_records hrecords fun r row htells => htells.day_eq
    have hordered' : (rows.map (·.key.day)).Pairwise (· < ·) := List.pairwise_map.2 hordered
    rw [← hdays, List.pairwise_map] at hordered'
    exact hordered'
  · intro r hr
    obtain ⟨row, _, hrow⟩ := List.mem_map.1 (hrecords ▸ List.mem_map_of_mem hr)
    have htells := Record.ofRow_eq_ok_iff.1 hrow
    rw [htells.day_eq, htells.1]
  · have hslots : records.map (fun r => (r.day, r.slots)) =
        rows.map fun row => (row.key.day, row.slots) :=
      map_eq_of_records hrecords fun r row htells => by rw [htells.day_eq, htells.2]
    have hrecord : (∃ r ∈ records, r.day = day ∧ r.slots = slots) ↔
        ∃ row ∈ rows, row.key.day = day ∧ row.slots = slots := by
      have hiff : (day, slots) ∈ records.map (fun r => (r.day, r.slots)) ↔
          (day, slots) ∈ rows.map fun row => (row.key.day, row.slots) := by rw [hslots]
      simpa only [List.mem_map, Prod.mk.injEq] using hiff
    rw [hrecord]
    constructor
    · rintro ⟨row, hrow, rfl, rfl⟩
      obtain ⟨hfound, _, _, hfirst, hlast⟩ := (hmem row).1 hrow
      rw [hkey row hrow] at hfound
      exact ⟨hfirst, hlast, by rw [hfound, Option.map_some]⟩
    · rintro ⟨hfirst, hlast, hfound⟩
      obtain ⟨row, hrow, rfl⟩ := Option.map_eq_some_iff.1 hfound
      have hsame := h.keyed _ row hrow
      refine ⟨row, (hmem row).2 ?_, by rw [hsame], rfl⟩
      rw [hsame]
      exact ⟨hrow, rfl, rfl, hfirst, hlast⟩

/-- A target with a day that cannot be told is refused for the first such day. -/
theorem refused_of_not_tellsAll (h : b.KeepsInOrder t) (hspan : first ≤ last)
    (hlast : last.HasPlainYear) (huntold : ¬ TellsAll t owner first last target) :
    ∃ rows row, b.range target owner first last = .ok rows ∧
      t.find? ⟨target, owner, row.key.day⟩ = some row ∧
      first ≤ row.key.day ∧ row.key.day ≤ last ∧ isTold row.key.day = false ∧
      (∀ day other, t.find? ⟨target, owner, day⟩ = some other → first ≤ day → day ≤ last →
        isTold day = false → row.key.day ≤ day) ∧
      (write rows .unbounded).2 = .error (.dayOutOfRange row.key.day) := by
  obtain ⟨rows, hrange, hordered, hmem⟩ := h.range target owner hspan hlast
  have hmem' : ∀ day row, t.find? ⟨target, owner, day⟩ = some row → first ≤ day → day ≤ last →
      row ∈ rows ∧ row.key.day = day := by
    intro day row hfound hfirst hlast
    have hsame := h.keyed _ row hfound
    refine ⟨(hmem row).2 ?_, by rw [hsame]⟩
    rw [hsame]
    exact ⟨hfound, rfl, rfl, hfirst, hlast⟩
  have hexists : ∃ row ∈ rows, isTold row.key.day = false := by
    refine Decidable.byContradiction fun hnone => huntold fun day row hfound hfirst hlast => ?_
    obtain ⟨hrow, hday⟩ := hmem' day row hfound hfirst hlast
    cases htold : isTold day with
    | true => exact of_decide_eq_true htold
    | false => exact absurd ⟨row, hrow, hday ▸ htold⟩ hnone
  obtain ⟨row, hrow, hday, hleast, hwrite⟩ := write_of_untold hordered hexists
  obtain ⟨hfound, htarget, howner, hfirst, hlast⟩ := (hmem row).1 hrow
  refine ⟨rows, row, hrange, ?_, hfirst, hlast, hday, ?_, hwrite⟩
  · have hkey : row.key = ⟨target, owner, row.key.day⟩ := by rw [← htarget, ← howner]
    rw [← hkey]
    exact hfound
  · intro day other hother hfirst hlast htold
    obtain ⟨hmem, rfl⟩ := hmem' day other hother hfirst hlast
    exact hleast other hmem htold

/-- What does not hold of all the members of a list does not hold of a first one. -/
theorem exists_first {α : Type} {p : α → Prop} {xs : List α} (h : ¬ ∀ x ∈ xs, p x) :
    ∃ before x after, xs = before ++ x :: after ∧ (∀ y ∈ before, p y) ∧ ¬ p x := by
  induction xs with
  | nil => exact absurd (by simp) h
  | cons x rest ih =>
      by_cases hx : p x
      · have hrest : ¬ ∀ y ∈ rest, p y := fun hall => h (List.forall_mem_cons.2 ⟨hx, hall⟩)
        obtain ⟨before, y, after, rfl, hbefore, hy⟩ := ih hrest
        exact ⟨x :: before, y, after, rfl, List.forall_mem_cons.2 ⟨hx, hbefore⟩, hy⟩
      · exact ⟨[], x, rest, rfl, by simp, hx⟩

/-- The files of targets whose days can be told are written, and each is the window of its
target. -/
theorem exported (h : b.KeepsInOrder t) (hspan : first ≤ last) (hlast : last.HasPlainYear)
    {before : List TargetId} (htold : ∀ target ∈ before, TellsAll t owner first last target)
    {dir : Directory} (hfree : ∀ target ∈ before, fileName target ∉ dir.taken)
    (after : List TargetId) :
    writeFiles (fun target => b.range target owner first last) 0 (before ++ after) dir =
        writeFiles (fun target => b.range target owner first last) before.length after
          (filed (fun target => b.range target owner first last) before dir) ∧
      ∀ target ∈ before, ∃ bytes,
        (filed (fun target => b.range target owner first last) before dir).files.find?
          (fileName target) = some bytes ∧ Holds t owner first last target bytes := by
  refine ⟨?_, fun target htarget => ?_⟩
  · rw [writeFiles_append (fun target htarget =>
      (holds_content h hspan hlast (htold target htarget)).1) hfree, Nat.zero_add]
  · exact ⟨_, find?_filed htarget, (holds_content h hspan hlast (htold target htarget)).2⟩

/-- **What is exported is the window of the store.**  Let a store keep a history, whose days
have plain years if it is a database, and let a directory be there for the files of some
targets.  The window begins so many days before today, or where the calendar begins.

If the days that are kept of these targets in the window can all be told, so many files are
written as there are targets, each of them is the window of its target, and nothing else is
touched.  If not, the export fails for the first target with another day, and for the first
such day of it: the targets before it have their files, which are their windows, and its
own file and those after it are as they were. -/
theorem exports_the_window (h : b.KeepsInOrder t) (owner : OwnerId) {targets : List TargetId}
    (hdistinct : targets.Nodup) {today : Day} (htoday : today.HasPlainYear) (days : Nat)
    {dir : Directory} (hobstacle : dir.obstacle = none)
    (hfree : ∀ target ∈ targets, fileName target ∉ dir.taken) {dir' : Directory}
    {answer : Except WindowFault Nat}
    (hexport : exportHistory (fun target => b.range target owner) dir targets today days =
      (dir', answer)) :
    (windowStart today days).number =
      max Day.first.number (today.number - ((max days 1 - 1 : Nat) : Int)) ∧
    ((∀ target ∈ targets, TellsAll t owner (windowStart today days) today target) →
      answer = .ok targets.length ∧
      (∀ target ∈ targets, ∃ bytes, dir'.files.find? (fileName target) = some bytes ∧
        Holds t owner (windowStart today days) today target bytes) ∧
      ∀ name, name ∉ targets.map fileName → dir'.files.find? name = dir.files.find? name) ∧
    ((¬ ∀ target ∈ targets, TellsAll t owner (windowStart today days) today target) →
      ∃ before target after day row, targets = before ++ target :: after ∧
        (∀ other ∈ before, TellsAll t owner (windowStart today days) today other) ∧
        t.find? ⟨target, owner, day⟩ = some row ∧ windowStart today days ≤ day ∧ day ≤ today ∧
        ¬ (Day.epoch ≤ day ∧ day ≤ lastTold) ∧
        (∀ other row, t.find? ⟨target, owner, other⟩ = some row →
          windowStart today days ≤ other → other ≤ today →
          ¬ (Day.epoch ≤ other ∧ other ≤ lastTold) → day ≤ other) ∧
        answer = .error (.encode (.dayOutOfRange day)) ∧
        (∀ other ∈ before, ∃ bytes, dir'.files.find? (fileName other) = some bytes ∧
          Holds t owner (windowStart today days) today other bytes) ∧
        (∀ other ∈ target :: after,
          dir'.files.find? (fileName other) = dir.files.find? (fileName other)) ∧
        ∀ name, name ∉ before.map fileName →
          dir'.files.find? name = dir.files.find? name) := by
  have hspan := windowStart_le today days
  rw [exportHistory, hobstacle] at hexport
  refine ⟨number_windowStart today days, fun htold => ?_, fun huntold => ?_⟩
  · obtain ⟨hwrite, hfiles⟩ := exported h hspan htoday htold hfree []
    rw [List.append_nil, writeFiles] at hwrite
    obtain ⟨rfl, rfl⟩ := Prod.mk.inj (hwrite.symm.trans hexport)
    exact ⟨rfl, hfiles, fun name => find?_filed_of_not_mem⟩
  · obtain ⟨before, target, after, rfl, htold, huntold⟩ := exists_first huntold
    obtain ⟨rows, row, hrange, hfound, hfirst, hlast, hday, hleast, hfault⟩ :=
      refused_of_not_tellsAll h hspan htoday huntold
    obtain ⟨hwrite, hfiles⟩ := exported h hspan htoday htold
      (fun target htarget => hfree target (List.mem_append_left _ htarget)) (target :: after)
    rw [writeFiles_of_fault hrange hfault] at hwrite
    obtain ⟨rfl, rfl⟩ := Prod.mk.inj (hwrite.symm.trans hexport)
    have hothers (name : String) (hname : name ∉ before.map fileName) :
        (filed (fun target => b.range target owner (windowStart today days) today) before
          dir).files.find? name = dir.files.find? name := find?_filed_of_not_mem hname
    refine ⟨before, target, after, row.key.day, row, rfl, htold, hfound, hfirst, hlast,
      of_decide_eq_false hday, ?_, rfl, hfiles, fun other hother => hothers _ ?_, hothers⟩
    · intro other row' hfound' hfirst' hlast' huntold'
      exact hleast other row' hfound' hfirst' hlast' (decide_eq_false huntold')
    · intro hmem
      obtain ⟨same, hsame, hname⟩ := List.mem_map.1 hmem
      obtain rfl := fileName_injective hname
      exact (List.nodup_append.1 hdistinct).2.2 same hsame same hother rfl

/-- A database keeps a row of the last day that can be told, and for another target one of
the day after it.  The window of these two days is exported for the first target alone. -/
theorem exports_the_window_one_day_too_late :
    ∃ (t : History) (db : Database) (owner : OwnerId) (known late : TargetId) (today : Day)
      (dir' : Directory),
      (Backend.database db).KeepsInOrder t ∧ today.civil = ⟨2106, 2, 8⟩ ∧
      exportHistory (fun target => (Backend.database db).range target owner) (.vacant "out")
        [known, late] today 2 = (dir', .error (.encode (.dayOutOfRange today))) ∧
      (∃ bytes, dir'.files.find? (fileName known) = some bytes ∧
        Holds t owner (windowStart today 2) today known bytes) ∧
      dir'.files.find? (fileName late) = none := by
  let owner : OwnerId := default
  let known : TargetId := ⟨List.replicate 32 0, by decide⟩
  let late : TargetId := ⟨List.replicate 32 1, by decide⟩
  let today : Day := ⟨49711, by decide⟩
  let early : DayHistory := .single ⟨known, owner, lastTold⟩ 5 7
  let last : DayHistory := .single ⟨late, owner, today⟩ 5 7
  let t : History := (Table.insert ∅ early.key early).insert last.key last
  let rows := (Table.insert ∅ (HistoryRowKey.ofKey early.key) early.toBlob).insert
    (HistoryRowKey.ofKey last.key) last.toBlob
  let db : Database := { Database.blank.migrate with history := some ⟨rows, []⟩ }
  have hinjective : ∀ a b, HistoryRowKey.ofKey a = HistoryRowKey.ofKey b → a = b :=
    fun _ _ => HistoryRowKey.ofKey_injective
  have hmirrors : Table.Mirrors HistoryRowKey.ofKey DayHistory.toBlob rows t :=
    (Table.Mirrors.empty.insert hinjective early.key early).insert hinjective last.key last
  have hfound : ∀ key row, t.find? key = some row →
      key = last.key ∧ row = last ∨ key = early.key ∧ row = early := by
    intro key row hrow
    rw [Table.find?_insert, Table.find?_insert] at hrow
    split at hrow
    · next hkey => exact .inl ⟨hkey, (Option.some.inj hrow).symm⟩
    split at hrow
    · next hkey => exact .inr ⟨hkey, (Option.some.inj hrow).symm⟩
    · cases hrow
  have hkeeps : (Backend.database db).KeepsInOrder t := by
    refine ⟨.database rfl hmirrors, fun key row hrow => ?_, fun _ _ key row hrow => ?_⟩
    · rcases hfound key row hrow with ⟨rfl, rfl⟩ | ⟨rfl, rfl⟩ <;> rfl
    · rcases hfound key row hrow with ⟨rfl, _⟩ | ⟨rfl, _⟩
      · exact (by decide : today.HasPlainYear)
      · exact (by decide : lastTold.HasPlainYear)
  have huntold : ¬ TellsAll t owner (windowStart today 2) today late := by
    intro htold
    have hlast : t.find? ⟨late, owner, today⟩ = some last := by
      rw [Table.find?_insert]
      exact if_pos rfl
    exact absurd (htold today last hlast (by decide) (by decide)) (by decide)
  have hdistinct : [known, late].Nodup := by decide
  have hplain : today.HasPlainYear := by decide
  have hobstacle : (Directory.vacant "out").obstacle = none := rfl
  have hfree : ∀ target ∈ [known, late], fileName target ∉ (Directory.vacant "out").taken :=
    fun target _ => by simp [Directory.vacant]
  obtain ⟨dir', answer, hexport⟩ : ∃ dir' answer,
      exportHistory (fun target => (Backend.database db).range target owner) (.vacant "out")
        [known, late] today 2 = (dir', answer) := ⟨_, _, (Prod.eta _).symm⟩
  obtain ⟨_, _, hfails⟩ :=
    exports_the_window hkeeps owner hdistinct hplain 2 hobstacle hfree hexport
  obtain ⟨before, target, after, day, row, htargets, _, hrow, _, _, hday, _, hanswer, hfiles, hrest,
    _⟩ := hfails fun hall => huntold (hall late (by simp))
  have hkey : (⟨target, owner, day⟩ : HistoryKey) = last.key := by
    rcases hfound _ _ hrow with ⟨hkey, _⟩ | ⟨hkey, _⟩
    · exact hkey
    · obtain rfl : day = lastTold := congrArg HistoryKey.day hkey
      exact absurd (by decide) hday
  obtain rfl : target = late := congrArg HistoryKey.target hkey
  obtain rfl : day = today := congrArg HistoryKey.day hkey
  have hbefore : known ∈ before := by
    cases before with
    | nil => exact absurd (List.cons.inj htargets).1 (by decide)
    | cons first rest =>
        rw [(List.cons.inj htargets).1]
        exact List.mem_cons_self
  rw [hanswer] at hexport
  refine ⟨t, db, owner, known, late, today, dir', hkeeps, ?_, hexport, hfiles known hbefore, ?_⟩
  · decide
  · rw [hrest late List.mem_cons_self, Directory.vacant, Table.find?_empty]

end Export

end PeerWatch
