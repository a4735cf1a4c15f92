import PeerWatch.Proofs.Databases

/-!
# Seeding a database

A daemon puts its targets into the database whenever it starts, over whatever
rows are there and next to others that work with them.  Each target in the list
is one statement; together they come to one table, in which what was put in last
counts, and a row that was there keeps all but its address and mode.

* `TargetRow.putIn_putIn` — a target put in twice;
* `TargetTable.seeded`, `TargetTable.find?_seeded_last` — the table after a list of them;
* `Database.upsertWork_ok_iff`, `Session.upsert_ok_iff` — when the list can be put in;
* `Session.seeding_preserves_state` — what it leaves, once, again and in parts.
-/

namespace PeerWatch

/-- Of two targets with one identity that are put in, the second counts. -/
theorem TargetRow.putIn_putIn {t t' : Target} (h : t'.id = t.id) (row? : Option TargetRow) :
    putIn t (some (putIn t' row?)) = putIn t row? := by
  cases row? with
  | none => simp [putIn, ofTarget, h]
  | some row => rfl

namespace TargetTable

/-- The table with a target put in. -/
def put (table : TargetTable) (t : Target) : TargetTable :=
  { table with
    rows := table.rows.insert t.id.bytes (TargetRow.putIn t (table.rows.find? t.id.bytes)) }

/-- The table with some targets put in, one after another. -/
def seeded (table : TargetTable) (ts : List Target) : TargetTable := ts.foldl put table

/-- Targets put in together are put in one after another. -/
theorem seeded_append (table : TargetTable) (first rest : List Target) :
    table.seeded (first ++ rest) = (table.seeded first).seeded rest := List.foldl_append

/-- A target put in changes its own row only. -/
theorem find?_put (table : TargetTable) (t : Target) (key : List UInt8) :
    (table.put t).rows.find? key =
      if key = t.id.bytes then some (TargetRow.putIn t (table.rows.find? key))
      else table.rows.find? key := by
  rw [put, Table.find?_insert]
  split
  · next heq => rw [heq]
  · rfl

@[simp] theorem refusals_seeded (table : TargetTable) (ts : List Target) :
    (table.seeded ts).refusals = table.refusals := by
  induction ts generalizing table with
  | nil => rfl
  | cons t rest ih => exact ih (table.put t)

@[simp] theorem refuses_seeded (table : TargetTable) (ts : List Target) :
    (table.seeded ts).refuses = table.refuses := by
  unfold refuses
  rw [refusals_seeded]

/-- The rows of targets that are not put in stay as they are. -/
theorem find?_seeded_of_ne {ts : List Target} {key : List UInt8} (h : ∀ t ∈ ts, t.id.bytes ≠ key)
    (table : TargetTable) : (table.seeded ts).rows.find? key = table.rows.find? key := by
  induction ts generalizing table with
  | nil => rfl
  | cons t rest ih =>
      have hne : key ≠ t.id.bytes := (h t List.mem_cons_self).symm
      calc ((table.put t).seeded rest).rows.find? key
          = (table.put t).rows.find? key := ih (fun t' ht' => h t' (List.mem_cons_of_mem _ ht')) _
        _ = table.rows.find? key := by rw [find?_put, if_neg hne]

/-- What was put in before under an identity does not show in what is put in under it. -/
theorem putIn_find?_seeded (t : Target) (ts : List Target) (table : TargetTable) :
    TargetRow.putIn t ((table.seeded ts).rows.find? t.id.bytes) =
      TargetRow.putIn t (table.rows.find? t.id.bytes) := by
  induction ts generalizing table with
  | nil => rfl
  | cons t' rest ih =>
      refine (ih (table.put t')).trans ?_
      rw [find?_put]
      split
      · next heq => exact TargetRow.putIn_putIn (TargetId.eq_of_bytes_eq heq.symm) _
      · rfl

/-- **The last target under an identity counts**, and it is put over the row that was there
before any of them. -/
theorem find?_seeded_last (table : TargetTable) (before : List Target) (t : Target)
    {after : List Target} (h : ∀ t' ∈ after, t'.id ≠ t.id) :
    (table.seeded (before ++ t :: after)).rows.find? t.id.bytes =
      some (TargetRow.putIn t (table.rows.find? t.id.bytes)) := by
  have hne : ∀ t' ∈ after, t'.id.bytes ≠ t.id.bytes := by
    intro t' ht' hbytes
    exact h t' ht' (TargetId.eq_of_bytes_eq hbytes)
  calc (table.seeded (before ++ t :: after)).rows.find? t.id.bytes
      = (((table.seeded before).put t).seeded after).rows.find? t.id.bytes := by
        rw [seeded_append]
        rfl
    _ = some (TargetRow.putIn t ((table.seeded before).rows.find? t.id.bytes)) := by
        rw [find?_seeded_of_ne hne, find?_put, if_pos rfl]
    _ = some (TargetRow.putIn t (table.rows.find? t.id.bytes)) := by rw [putIn_find?_seeded]

/-- An identity that is put in has a last place in the list. -/
theorem exists_last {ts : List Target} {key : List UInt8} (h : ∃ t ∈ ts, t.id.bytes = key) :
    ∃ before t after, ts = before ++ t :: after ∧ t.id.bytes = key ∧
      ∀ t' ∈ after, t'.id ≠ t.id := by
  induction ts with
  | nil =>
      obtain ⟨t, ht, -⟩ := h
      cases ht
  | cons head rest ih =>
      by_cases hrest : ∃ t ∈ rest, t.id.bytes = key
      · obtain ⟨before, t, after, rfl, hkey, hlast⟩ := ih hrest
        exact ⟨head :: before, t, after, rfl, hkey, hlast⟩
      · obtain ⟨t, ht, hkey⟩ := h
        rcases List.mem_cons.1 ht with rfl | ht
        · refine ⟨[], t, rest, rfl, hkey, ?_⟩
          intro t' ht' hid
          exact hrest ⟨t', ht', by rw [hid, hkey]⟩
        · exact absurd ⟨t, ht, hkey⟩ hrest

/-- Targets that are put in again change nothing. -/
theorem seeded_seeded (table : TargetTable) (ts : List Target) :
    (table.seeded ts).seeded ts = table.seeded ts := by
  have hrows : ((table.seeded ts).seeded ts).rows = (table.seeded ts).rows := by
    refine Table.ext_find? fun key => ?_
    by_cases hkey : ∃ t ∈ ts, t.id.bytes = key
    · obtain ⟨before, t, after, rfl, rfl, hlast⟩ := exists_last hkey
      rw [find?_seeded_last _ before t hlast, find?_seeded_last _ before t hlast,
        TargetRow.putIn_putIn rfl]
    · exact find?_seeded_of_ne (fun t ht heq => hkey ⟨t, ht, heq⟩) _
  have hrefusals := (table.seeded ts).refusals_seeded ts
  generalize (table.seeded ts).seeded ts = again at hrows hrefusals ⊢
  cases again
  exact congr (congrArg TargetTable.mk hrows) hrefusals

end TargetTable

namespace Database

variable {db db' : Database}

/-- The database with some targets put in; nothing is put into a missing table. -/
def seeded (db : Database) (ts : List Target) : Database :=
  { db with targets := db.targets.map (·.seeded ts) }

/-- Nothing hinders putting a target in. -/
def AcceptsTarget (db : Database) (t : Target) : Prop :=
  ∃ table, db.targets = some table ∧ table.refuses .insertion t.id.bytes = false

@[simp] theorem seeded_nil (db : Database) : db.seeded [] = db := by
  obtain ⟨targets, history, versions⟩ := db
  cases targets <;> rfl

/-- Targets put in together are put in one after another. -/
theorem seeded_append (db : Database) (first rest : List Target) :
    db.seeded (first ++ rest) = (db.seeded first).seeded rest := by
  obtain ⟨targets, history, versions⟩ := db
  cases targets with
  | none => rfl
  | some table => simp [seeded, TargetTable.seeded_append]

/-- Targets put in once more change nothing. -/
theorem seeded_seeded (db : Database) (ts : List Target) :
    (db.seeded ts).seeded ts = db.seeded ts := by
  obtain ⟨targets, history, versions⟩ := db
  cases targets with
  | none => rfl
  | some table => simp [seeded, TargetTable.seeded_seeded]

/-- Targets that are put in hinder no others. -/
@[simp] theorem acceptsTarget_seeded {ts : List Target} {t : Target} :
    (db.seeded ts).AcceptsTarget t ↔ db.AcceptsTarget t := by
  obtain ⟨targets, history, versions⟩ := db
  cases targets <;> simp [AcceptsTarget, seeded]

/-- What is found in the table once some targets are put in. -/
theorem find?_seeded {table : TargetTable} (h : db.targets = some table) (ts : List Target)
    (key : List UInt8) :
    (db.seeded ts).sheets.targets.find? key = (table.seeded ts).rows.find? key := by
  have htargets : (db.seeded ts).targets = some (table.seeded ts) := by rw [seeded, h]; rfl
  rw [sheets_targets htargets]

/-- What putting a target in comes to, if nothing hinders it. -/
theorem effect_upsertWork_of_accepts {t : Target} (h : db.AcceptsTarget t) (rest : List Target) :
    effect (upsertWork (t :: rest)) db = effect (upsertWork rest) (db.seeded [t]) := by
  obtain ⟨table, htable, hrefuses⟩ := h
  have hput : db.seeded [t] = { db with targets := some (table.put t) } := by
    rw [seeded, htable]
    rfl
  rw [hput]
  exact effect_upsertWork_cons htable hrefuses rest

/-- A target that is hindered keeps the whole list from being put in. -/
theorem accepts_of_upsertWork {t : Target} {rest : List Target}
    (h : effect (upsertWork (t :: rest)) db = (.ok (), db')) : db.AcceptsTarget t := by
  rw [upsertWork, bind_ok_iff] at h
  obtain ⟨table, between, htable, hrest⟩ := h
  obtain ⟨htable, rfl⟩ := targetTable_ok_iff.1 htable
  cases hrefuses : table.refuses .insertion t.id.bytes with
  | false => exact ⟨table, htable, hrefuses⟩
  | true =>
      rw [if_pos hrefuses] at hrest
      cases hrest

/-- **Targets can be put in** when nothing hinders one of them, and all that comes of it is
that they are. -/
theorem upsertWork_ok_iff {ts : List Target} :
    effect (upsertWork ts) db = (.ok (), db') ↔ (∀ t ∈ ts, db.AcceptsTarget t) ∧
      db' = db.seeded ts := by
  induction ts generalizing db with
  | nil =>
      rw [upsertWork, pure_ok_iff]
      simp
  | cons t rest ih =>
      have hseeded : db.seeded (t :: rest) = (db.seeded [t]).seeded rest :=
        db.seeded_append [t] rest
      rw [List.forall_mem_cons, hseeded, and_assoc]
      constructor
      · intro hdone
        have haccepts := accepts_of_upsertWork hdone
        rw [effect_upsertWork_of_accepts haccepts, ih] at hdone
        simpa only [haccepts, true_and, acceptsTarget_seeded] using hdone
      · rintro ⟨haccepts, hrest⟩
        rw [effect_upsertWork_of_accepts haccepts, ih]
        simpa only [acceptsTarget_seeded] using hrest

/-- The same of the transaction that puts them in and counts them. -/
theorem upsertCount_ok_iff {ts : List Target} {count : Nat} :
    effect (do upsertWork ts; pure ts.length) db = (.ok count, db') ↔
      (∀ t ∈ ts, db.AcceptsTarget t) ∧ db' = db.seeded ts ∧ count = ts.length := by
  rw [bind_ok_iff]
  constructor
  · rintro ⟨_, between, hdone, hcount⟩
    obtain ⟨rfl, rfl⟩ := pure_ok_iff.1 hcount
    obtain ⟨haccepts, hleft⟩ := upsertWork_ok_iff.1 hdone
    exact ⟨haccepts, hleft, rfl⟩
  · rintro ⟨haccepts, hleft, rfl⟩
    exact ⟨(), db', upsertWork_ok_iff.2 ⟨haccepts, hleft⟩, rfl⟩

namespace Session

variable {s s' : Session} {c : Contention}

/-- Putting targets in succeeds when nobody hinders the session and nothing one of them. -/
theorem upsert_ok_iff {ts : List Target} {count : Nat} :
    s.upsert c ts = (s', .ok count) ↔
      (c = .free ∧ s.checkpoint = none ∧ s'.checkpoint = none) ∧
        (∀ t ∈ ts, s.tables.AcceptsTarget t) ∧ s'.tables = s.tables.seeded ts ∧
        count = ts.length := by
  rw [upsert, transact_ok_iff, upsertCount_ok_iff]
  simp only [and_assoc]

/-- Whether it succeeds or not, targets that are put in again change nothing. -/
theorem upsert_again (db : Database) (c : Contention) (ts : List Target) :
    ((idle (db.seeded ts)).upsert c ts).1 = idle (db.seeded ts) := by
  obtain ⟨hfailed, hdone⟩ := transact_allOrNothing (db.seeded ts) c
    (do upsertWork ts; pure ts.length)
  cases hresult : ((idle (db.seeded ts)).upsert c ts).2 with
  | error e => exact hfailed e hresult
  | ok count =>
      obtain ⟨left, hwork, hsession⟩ := hdone count hresult
      obtain ⟨-, rfl, -⟩ := upsertCount_ok_iff.1 hwork
      exact hsession.trans (congrArg idle (db.seeded_seeded ts))

/-- **Seeding preserves state.**  Put any list of targets, some of them more than once and
whatever else they carry, into any database, and let that succeed.  The answer is how many
were given.  Each of their rows has the address and the mode that came last, and else what it
had before; a row that is new knows of no claim and no probe.  All other rows, the history,
the recorded versions and what the table refuses stay as they were.

Put in again, even if that fails, the list changes nothing more.  It can be put in in parts,
and what is put in after it might have come with it. -/
theorem seeding_preserves_state {ts : List Target} {count : Nat}
    (h : s.upsert c ts = (s', .ok count)) :
    let rowOf (s : Session) (key : List UInt8) := s.tables.sheets.targets.find? key
    (count = ts.length ∧ s'.checkpoint = none) ∧
    (∀ before t after, ts = before ++ t :: after → (∀ t' ∈ after, t'.id ≠ t.id) →
      (∀ row, rowOf s t.id.bytes = some row →
        rowOf s' t.id.bytes = some { row with address := t.address, mode := t.mode.name }) ∧
      (rowOf s t.id.bytes = none →
        rowOf s' t.id.bytes =
          some ⟨t.id.bytes, t.address, t.mode.name, none, none, none, none⟩)) ∧
    (∀ key, (∀ t ∈ ts, t.id.bytes ≠ key) → rowOf s' key = rowOf s key) ∧
    (s'.tables.history = s.tables.history ∧ s'.tables.versions = s.tables.versions ∧
      s'.tables.targets.map (·.refusals) = s.tables.targets.map (·.refusals)) ∧
    (s'.upsert .free ts = (s', .ok ts.length) ∧ ∀ c', (s'.upsert c' ts).1 = s') ∧
    (∀ first rest, ts = first ++ rest → ∃ between,
      s.upsert .free first = (between, .ok first.length) ∧
        between.upsert .free rest = (s', .ok rest.length)) ∧
    ∀ more left, s'.upsert .free more = (left, .ok more.length) ↔
      s.upsert .free (ts ++ more) = (left, .ok (ts ++ more).length) := by
  obtain ⟨⟨rfl, hidle, hidle'⟩, haccepts, htables, rfl⟩ := upsert_ok_iff.1 h
  obtain ⟨tables, checkpoint⟩ := s
  obtain ⟨tables', checkpoint'⟩ := s'
  simp only at hidle hidle' htables haccepts
  subst hidle hidle' htables
  intro rowOf
  have hagain : (idle (tables.seeded ts)).upsert .free ts =
      (idle (tables.seeded ts), .ok ts.length) := by
    refine upsert_ok_iff.2 ⟨⟨rfl, rfl, rfl⟩, ?_, (tables.seeded_seeded ts).symm, rfl⟩
    exact fun t ht => acceptsTarget_seeded.2 (haccepts t ht)
  refine ⟨⟨rfl, rfl⟩, ?_, ?_, ⟨rfl, rfl, ?_⟩, ⟨hagain, ?_⟩, ?_, ?_⟩
  · rintro before t after rfl hlast
    obtain ⟨table, htable, -⟩ := haccepts t (by simp)
    have hfound := table.find?_seeded_last before t hlast
    rw [← find?_seeded htable, ← sheets_targets htable] at hfound
    constructor
    · intro row hrow
      exact hfound.trans (congrArg (fun row? => some (TargetRow.putIn t row?)) hrow)
    · intro hnone
      exact hfound.trans (congrArg (fun row? => some (TargetRow.putIn t row?)) hnone)
  · intro key hkey
    cases htargets : tables.targets with
    | none => simp [rowOf, seeded, sheets, htargets]
    | some table =>
        refine (find?_seeded htargets ts key).trans ?_
        rw [TargetTable.find?_seeded_of_ne hkey, ← sheets_targets htargets]
  · simp only [seeded, Option.map_map]
    congr 1
    funext table
    exact table.refusals_seeded ts
  · exact fun c' => upsert_again tables c' ts
  · rintro first rest rfl
    refine ⟨idle (tables.seeded first), ?_, ?_⟩
    · refine upsert_ok_iff.2 ⟨⟨rfl, rfl, rfl⟩, ?_, rfl, rfl⟩
      exact fun t ht => haccepts t (List.mem_append_left _ ht)
    · refine upsert_ok_iff.2 ⟨⟨rfl, rfl, rfl⟩, ?_, tables.seeded_append first rest, rfl⟩
      exact fun t ht => acceptsTarget_seeded.2 (haccepts t (List.mem_append_right _ ht))
  · intro more left
    simp only [upsert_ok_iff, seeded_append, acceptsTarget_seeded, List.forall_mem_append]
    grind

/-- A target that was claimed and probed is put in twice, around one that is new. -/
theorem seeding_preserves_state_of_duplicates :
    ∃ (s s' : Session) (old new : Target) (row : TargetRow),
      s.upsert .free [old, new, { old with address := "peer:2" }] = (s', .ok 3) ∧
      row.lastClaimedAt = some 1000 ∧ row.lastProbeOk = some 1 ∧ new.lastProbeOk = some true ∧
      s.tables.sheets.targets.find? old.id.bytes = some row ∧
      s'.tables.sheets.targets.find? old.id.bytes = some { row with address := "peer:2" } ∧
      s'.tables.sheets.targets.find? new.id.bytes =
        some ⟨new.id.bytes, new.address, new.mode.name, none, none, none, none⟩ ∧
      s'.upsert .free [old, new, { old with address := "peer:2" }] = (s', .ok 3) := by
  let old : Target := .fresh default "peer:1" .ping
  let new : Target :=
    ⟨⟨List.replicate 32 1, rfl⟩, "peer:3", .dial, some default, some default, some 7, some true⟩
  let row : TargetRow := ⟨old.id.bytes, "peer:0", "ping", some 1000, some 900, some 7, some 1⟩
  let s : Session := idle ⟨some ⟨(∅ : Table _ _).insert row.id row, []⟩, some ⟨∅, []⟩, [1]⟩
  let ts : List Target := [old, new, { old with address := "peer:2" }]
  have h : s.upsert .free ts = (idle (s.tables.seeded ts), .ok ts.length) := by
    refine upsert_ok_iff.2 ⟨⟨rfl, rfl, rfl⟩, fun t _ => ⟨_, rfl, ?_⟩, rfl, rfl⟩
    rfl
  obtain ⟨_, hlast, _, _, ⟨hagain, _⟩, _⟩ := seeding_preserves_state h
  have hold := hlast [old, new] { old with address := "peer:2" } [] rfl (by simp)
  have hnew := hlast [old] new [{ old with address := "peer:2" }] rfl (by decide)
  exact ⟨s, _, old, new, row, h, rfl, rfl, rfl, rfl, hold.1 row rfl, hnew.2 rfl, hagain⟩

end Session

end Database

end PeerWatch
