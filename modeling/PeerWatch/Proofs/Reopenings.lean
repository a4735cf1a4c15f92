import Mathlib.Logic.Function.Basic
import PeerWatch.Proofs.SharedFiles

/-!
# Opening a database again

Whoever opens a database brings its schema up to date.  That is done once: it
keeps what is there, and a second time it finds nothing to do, also if the first
time was broken off.  The versions that it records are for the next to open the
file; no statement of an operation looks at them.  So nobody can tell whether the
others, or he himself, closed the database in between and opened it again.

There is one exception: a handle that a claim has left inside its transaction
answers no further claim or batch, and a new one does.  A client that reopens the
file there can tell.

* `Database.Work.OnRows` — work for which the recorded versions do not matter;
* `Database.Session.answer_withVersions` — no call depends on them;
* `Database.migrate_of_recent`, `migrate_of_outdated`, `migrate_begun` — what opening does;
* `Clientele`, `Errand`, `Clientele.perform` — those who work with a file, and reopen it;
* `Clientele.ReopensOutside` — nobody reopens the file inside a transaction;
* `Clientele.Alike` — clients that had the same answers;
* `reopening_is_transparent` — what opening a database again changes;
* `reopening_shows_after_torn_claim` — the exception.
-/

namespace PeerWatch

namespace Database

/-- The database with other versions recorded. -/
def withVersions (db : Database) (versions : List Int) : Database :=
  { db with versions := versions }

@[simp] theorem withVersions_self (db : Database) : db.withVersions db.versions = db := rfl

section Statements

variable {α β : Type} {work : Work α} {next : α → Work β}

/-- The work is on the rows of the tables: it does the same whatever versions are recorded,
and takes no table away. -/
structure Work.OnRows (work : Work α) : Prop where
  versions : ∀ (db : Database) (versions : List Int), effect work (db.withVersions versions) =
    ((effect work db).1, (effect work db).2.withVersions versions)
  tables : ∀ {db : Database}, db.HasTables → (effect work db).2.HasTables

namespace Work.OnRows

/-- Nothing is done with the tables. -/
theorem lift (result : Except StoreError α) : OnRows (ExceptT.mk (pure result)) :=
  ⟨fun _ _ => rfl, fun h => h⟩

theorem bind (h : work.OnRows) (hnext : ∀ a, (next a).OnRows) : (work >>= next).OnRows where
  versions db versions := by
    rw [effect_bind, effect_bind, h.versions db versions]
    cases effect work db with
    | mk result left =>
        cases result with
        | error e => rfl
        | ok a => exact (hnext a).versions left versions
  tables {db} htables := by
    have hleft := h.tables htables
    rw [effect_bind]
    cases hwork : effect work db with
    | mk result left =>
        rw [hwork] at hleft
        cases result with
        | error e => exact hleft
        | ok a => exact (hnext a).tables hleft

/-- What is made of the result of work on rows does not matter. -/
theorem map (h : work.OnRows) (f : α → β) : (f <$> work).OnRows := by
  rw [← bind_pure_comp]
  exact h.bind fun a => lift (.ok (f a))

/-- Renaming the errors makes no difference. -/
theorem renamed (h : work.OnRows) (rename : StoreError → StoreError) :
    OnRows (tryCatch work fun e => throw (rename e)) where
  versions db versions := by
    rw [effect_tryCatch_throw, effect_tryCatch_throw, h.versions db versions]
  tables htables := by
    rw [effect_tryCatch_throw]
    exact h.tables htables

/-- Work that may be refused. -/
theorem guarded (h : work.OnRows) (refused : Bool) (e : StoreError) :
    OnRows (do
      if refused then throw e
      work) := by
  cases refused with
  | true => exact lift (.error e)
  | false => exact h

theorem targetTable : Database.targetTable.OnRows where
  versions db versions := by
    obtain ⟨targets, history, recorded⟩ := db
    cases targets <;> rfl
  tables {db} htables := by
    obtain ⟨table, htable⟩ := Option.isSome_iff_exists.1 htables.1
    rw [effect_targetTable htable]
    exact htables

theorem historyTable : Database.historyTable.OnRows where
  versions db versions := by
    obtain ⟨targets, history, recorded⟩ := db
    cases history <;> rfl
  tables {db} htables := by
    obtain ⟨table, htable⟩ := Option.isSome_iff_exists.1 htables.2
    rw [effect_historyTable htable]
    exact htables

theorem setTargetRows (table : TargetTable) (rows : Table (List UInt8) TargetRow) :
    (Database.setTargetRows table rows).OnRows :=
  ⟨fun _ _ => rfl, fun htables => ⟨rfl, htables.2⟩⟩

theorem setHistoryRows (table : HistoryTable) (rows : Table HistoryRowKey (List UInt8)) :
    (Database.setHistoryRows table rows).OnRows :=
  ⟨fun _ _ => rfl, fun htables => ⟨htables.1, rfl⟩⟩

theorem handOut (table : TargetTable) (limit : Nat) (now moment : Calendar.Instant) :
    (Database.handOut table limit now moment).OnRows := by
  have hstamp : ∀ (stamp : Int) (ts : List Target), (stampAll stamp ts).OnRows := by
    intro stamp ts
    induction ts with
    | nil => exact lift (.ok ())
    | cons t rest ih =>
        exact targetTable.bind fun table => ((setTargetRows table _).bind fun _ => ih).guarded _ _
  exact (lift _).bind fun claimed => (hstamp _ claimed).bind fun _ => lift (.ok _)

theorem claimWork (limit : Nat) (now : Calendar.Instant) :
    (Database.claimWork limit now).OnRows :=
  (lift _).bind fun moment => targetTable.bind fun table => handOut table limit now moment

theorem claimWork? (limit : Nat) (now : Calendar.Instant) :
    (Database.claimWork? limit now).OnRows := by
  refine (lift _).bind fun moment => targetTable.bind fun table => ?_
  split
  · exact lift (.ok none)
  · exact (handOut table limit now moment).map _

theorem recordWork (r : OutcomeRecord) (report : BatchReport) :
    (Database.recordWork r report).OnRows := by
  have hnote : (noteOutcome r.outcome).OnRows := by
    refine targetTable.bind fun table => ?_
    split
    · exact ((setTargetRows table _).bind fun _ => lift (.ok true)).guarded _ _
    · exact lift (.ok false)
  have hwrite : (writeSlot r.slot).OnRows := by
    refine historyTable.bind fun table => ?_
    dsimp only
    split
    · exact (lift _).bind fun row =>
        ((setHistoryRows table _).bind fun _ => lift (.ok true)).guarded _ _
    · exact ((setHistoryRows table _).bind fun _ => lift (.ok false)).guarded _ _
  exact hnote.bind fun _ => hwrite.bind fun _ => lift (.ok _)

theorem batchWork (rs : List OutcomeRecord) (row : Nat) (report : BatchReport) :
    (Database.batchWork row rs report).OnRows := by
  induction rs generalizing row report with
  | nil => exact lift (.ok report)
  | cons r rest ih =>
      exact ((recordWork r report).renamed _).bind fun report => ih (row + 1) report

theorem upsertWork (ts : List Target) : (Database.upsertWork ts).OnRows := by
  induction ts with
  | nil => exact lift (.ok ())
  | cons t rest ih =>
      refine targetTable.bind fun table => ?_
      refine OnRows.guarded ?_ _ _
      exact (setTargetRows table _).bind fun _ => ih

/-- **Every call** is on the rows. -/
theorem statements (call : SessionCall) : (Database.statements call).OnRows := by
  cases call with
  | store call =>
      cases call with
      | claim limit now =>
          refine OnRows.map ?_ _
          split
          · exact lift (.ok [])
          · exact claimWork limit now
      | record rs => exact (batchWork rs 0 .zero).map _
      | target id => exact ⟨fun _ _ => rfl, fun htables => htables⟩
      | range target owner first last => exact ⟨fun _ _ => rfl, fun htables => htables⟩
  | upsert ts => exact ((upsertWork ts).bind fun _ => lift (.ok _)).map _

end Work.OnRows

namespace Session

/-- The session, with other versions recorded in its tables. -/
def withVersions (s : Session) (versions : List Int) : Session :=
  ⟨s.tables.withVersions versions, s.checkpoint.map (·.withVersions versions)⟩

/-- A transaction does the same whatever versions are recorded, if its work does, also one
whose work may tear its caller down. -/
theorem transact?_withVersions {work : Work (Option α)} (h : work.OnRows) (s : Session)
    (c : Contention) (versions : List Int) :
    (s.withVersions versions).transact? c work =
      ((s.transact? c work).1.withVersions versions, (s.transact? c work).2) := by
  obtain ⟨tables, checkpoint⟩ := s
  obtain ⟨atBegin, atCommit⟩ := c
  cases checkpoint with
  | some before => rfl
  | none =>
      cases atBegin with
      | some hindrance => rfl
      | none =>
          have hwork := h.versions tables versions
          unfold transact?
          simp only [withVersions, Option.map_none, begin, perform_eq]
          rw [hwork]
          cases effect work tables with
          | mk result left =>
              cases result with
              | error e => rfl
              | ok value? =>
                  cases value? with
                  | none => rfl
                  | some v => cases atCommit <;> rfl

/-- So does one whose work cannot. -/
theorem transact_withVersions (h : work.OnRows) (s : Session) (c : Contention)
    (versions : List Int) :
    (s.withVersions versions).transact c work =
      ((s.transact c work).1.withVersions versions, (s.transact c work).2) := by
  have hsame := transact?_withVersions (h.map some) s c versions
  rw [transact?_some, transact?_some, Prod.ext_iff] at hsame
  exact Prod.ext hsame.1 (Option.some.inj hsame.2)

/-- **No call depends on the recorded versions,** or changes them. -/
theorem answer_withVersions (c : Contention) (call : SessionCall) (s : Session)
    (versions : List Int) :
    answer (c, call) (s.withVersions versions) =
      ((answer (c, call) s).1.withVersions versions, (answer (c, call) s).2) := by
  cases call with
  | store call =>
      cases call with
      | claim limit now =>
          by_cases hlimit : limit = 0
          · subst hlimit
            rfl
          · simp only [answer, claim, if_neg hlimit,
              transact?_withVersions (.claimWork? limit now)]
      | record rs =>
          cases rs with
          | nil => rfl
          | cons r rest =>
              have hnonempty : (r :: rest).isEmpty = false := rfl
              simp only [answer, record, hnonempty, Bool.false_eq_true, if_false,
                transact_withVersions (.batchWork _ _ _)]
      | target id => rfl
      | range target owner first last => rfl
  | upsert ts =>
      have hwork : Work.OnRows (do upsertWork ts; pure ts.length) :=
        (Work.OnRows.upsertWork ts).bind fun _ => .lift (.ok _)
      simp only [answer, upsert, transact_withVersions hwork]

/-- The recorded versions are kept with the tables. -/
theorem durable_withVersions (s : Session) (versions : List Int) :
    (s.withVersions versions).durable = s.durable.withVersions versions := by
  obtain ⟨tables, checkpoint⟩ := s
  cases checkpoint <;> rfl

end Session

end Statements

section Handles

variable {db : Database} {handle : Handle} {session : Session}

/-- The session of a handle is over what the file holds, versions included. -/
theorem session?_withVersions (h : handle.session? db = some session) (versions : List Int) :
    handle.session? (db.withVersions versions) = some (session.withVersions versions) := by
  cases handle with
  | idle | leftOpen =>
      obtain rfl := Option.some.inj h
      rfl
  | closed => cases h

/-- The versions that were recorded stay recorded. -/
theorem versions_answer (h : handle.session? db = some session) (c : Contention)
    (call : SessionCall) : (Session.answer (c, call) session).1.durable.versions = db.versions := by
  have hself : session.withVersions db.versions = session := by
    have hsession := session?_withVersions h db.versions
    rw [withVersions_self, h] at hsession
    exact (Option.some.inj hsession).symm
  have hsame := congrArg Prod.fst (Session.answer_withVersions c call session db.versions)
  rw [hself] at hsame
  rw [hsame, Session.durable_withVersions]
  rfl

/-- No call takes a table away. -/
theorem hasTables_answer (h : handle.session? db = some session) (htables : db.HasTables)
    (c : Contention) (call : SessionCall) :
    (Session.answer (c, call) session).1.durable.HasTables := by
  cases handle with
  | closed => cases h
  | leftOpen =>
      obtain rfl := Option.some.inj h
      obtain ⟨result, hanswer⟩ := Session.answer_of_checkpoint db db (c, call)
      rw [hanswer]
      exact htables
  | idle =>
      obtain rfl := Option.some.inj h
      rcases Session.answer_idle_cases c call db with htorn | ⟨e, he⟩ | ⟨v, left, hwork, hv⟩
      · rw [htorn]
        exact htables
      · rw [he]
        exact htables
      · have hleft := (Work.OnRows.statements call).tables htables
        rw [hwork] at hleft
        rw [hv]
        exact hleft

end Handles

section Migrations

variable {db : Database}

/-- A version is recorded that has both tables. -/
def IsRecent (versions : List Int) : Prop := ∃ v ∈ versions, 1 ≤ v

/-- Versions are recent where one of them is. -/
theorem isRecent_cons {v : Int} {vs : List Int} : IsRecent (v :: vs) ↔ 1 ≤ v ∨ IsRecent vs := by
  simp [IsRecent]

/-- The greatest version tells whether there is one. -/
theorem schemaVersion_le_currentVersion_iff :
    schemaVersion ≤ db.currentVersion ↔ IsRecent db.versions := by
  have hfold : ∀ (vs : List Int) (v : Int), 1 ≤ vs.foldl max v ↔ IsRecent (v :: vs) := by
    intro vs
    induction vs with
    | nil =>
        intro v
        simp [IsRecent]
    | cons w rest ih =>
        intro v
        rw [List.foldl_cons, ih, isRecent_cons, isRecent_cons, isRecent_cons, Std.le_max,
          or_assoc]
  unfold currentVersion schemaVersion
  cases db.versions with
  | nil => simp [IsRecent]
  | cons v vs => exact hfold vs v

/-- A database of a recent version is left as it is, tables that it lacks included. -/
theorem migrate_of_recent (h : IsRecent db.versions) : db.migrate = db :=
  if_pos (schemaVersion_le_currentVersion_iff.2 h)

/-- Any other is given the tables that it lacks, and the version is recorded. -/
theorem migrate_of_outdated (h : ¬ IsRecent db.versions) :
    db.migrate =
      { targets := some (db.targets.getD ⟨∅, []⟩)
        history := some (db.history.getD ⟨∅, []⟩)
        versions := db.versions ++ [1] } := by
  have hunrecorded : db.versions.contains schemaVersion = false := by
    rw [Bool.eq_false_iff, Ne, List.contains_iff_mem]
    exact fun hmem => h ⟨1, hmem, Int.le_refl 1⟩
  unfold migrate
  rw [if_neg (mt schemaVersion_le_currentVersion_iff.1 h), hunrecorded]
  rfl

/-- A database brought up to date has recent versions. -/
theorem isRecent_migrate (db : Database) : IsRecent db.migrate.versions := by
  by_cases hrecent : IsRecent db.versions
  · rwa [migrate_of_recent hrecent]
  · rw [migrate_of_outdated hrecent]
    exact ⟨1, by simp, Int.le_refl 1⟩

/-- A migration finds nothing left to do by another one. -/
theorem migrate_migrate (db : Database) : db.migrate.migrate = db.migrate :=
  migrate_of_recent db.isRecent_migrate

/-- One that was broken off is made whole by the next. -/
theorem migrate_begun (db : Database) (count : Nat) : (db.begun count).migrate = db.migrate := by
  unfold begun
  split
  · rfl
  · next hversion =>
      have houtdated : ¬ IsRecent db.versions := mt schemaVersion_le_currentVersion_iff.2 hversion
      split
      · rfl
      · rw [migrate_of_outdated (by exact houtdated), migrate_of_outdated houtdated]
        rfl
      · rw [migrate_of_outdated (by exact houtdated), migrate_of_outdated houtdated]
        rfl
      · exact db.migrate_migrate

/-- A table of targets that is there is kept. -/
theorem targets_migrate {table : TargetTable} (h : db.targets = some table) :
    db.migrate.targets = some table := by
  by_cases hrecent : IsRecent db.versions
  · rwa [migrate_of_recent hrecent]
  · rw [migrate_of_outdated hrecent, h]
    rfl

/-- So is one of histories. -/
theorem history_migrate {table : HistoryTable} (h : db.history = some table) :
    db.migrate.history = some table := by
  by_cases hrecent : IsRecent db.versions
  · rwa [migrate_of_recent hrecent]
  · rw [migrate_of_outdated hrecent, h]
    rfl

/-- A migration of a database with both tables at most records a version. -/
theorem migrate_of_hasTables (h : db.HasTables) :
    db.migrate = db.withVersions db.migrate.versions := by
  by_cases hrecent : IsRecent db.versions
  · rw [migrate_of_recent hrecent, withVersions_self]
  · obtain ⟨targets, history, versions⟩ := db
    obtain ⟨⟨table, rfl⟩, ⟨days, rfl⟩⟩ :=
      And.intro (Option.isSome_iff_exists.1 h.1) (Option.isSome_iff_exists.1 h.2)
    rw [migrate_of_outdated hrecent]
    rfl

end Migrations

end Database

/-- Clients of a database file, each at a handle of its own. -/
structure Clientele (n : Nat) where
  shared : SharedFile
  /-- The number of the handle at which a client is. -/
  seat : Fin n → Nat

/-- Something that a client does. -/
inductive Errand (n : Nat) where
  /-- Calls the store, under what other hands refuse it. -/
  | calling (i : Fin n) (c : Database.Contention) (call : SessionCall)
  /-- Closes its handle and opens the file again. -/
  | reopening (i : Fin n)

/-- Whether the errand is a call. -/
def Errand.isCall {n : Nat} : Errand n → Bool
  | .calling _ _ _ => true
  | .reopening _ => false

namespace Clientele

variable {n : Nat}

/-- Some clients of a database, who have just opened it. -/
def seated (db : Database) (n : Nat) : Clientele n :=
  ⟨⟨.holding db, List.replicate n .idle⟩, Fin.val⟩

/-- The handle at which a client is. -/
def handle? (k : Clientele n) (i : Fin n) : Option Handle := k.shared.handles[k.seat i]?

/-- What comes of an errand, with the reply to a call.  A client that is torn down goes on at
the handle where it was. -/
def perform (path : String) (k : Clientele n) : Errand n → Option (Clientele n × List FileReply)
  | .calling i c call =>
    (k.shared.react path (.calling (k.seat i) c call)).map fun (shared, reply) =>
      (⟨shared, k.seat⟩, [reply])
  | .reopening i => do
    let (left, _) ← k.shared.react path (.closing (k.seat i))
    let (shared, reply) ← left.react path (.opening none)
    match reply with
    | .opened => some (⟨shared, Function.update k.seat i left.handles.length⟩, [])
    | _ => none

/-- A step of a run, with the replies so far. -/
def step (path : String) (now : Clientele n × List FileReply) (e : Errand n) :
    Option (Clientele n × List FileReply) :=
  (now.1.perform path e).map fun next => (next.1, now.2 ++ next.2)

/-- Nobody, at whatever point of a run, closes a handle that a claim has left inside its
transaction. -/
def ReopensOutside (path : String) : Clientele n → List (Errand n) → Prop
  | _, [] => True
  | k, .calling i c call :: rest =>
    ∀ next ∈ k.perform path (.calling i c call), ReopensOutside path next.1 rest
  | k, .reopening i :: rest => k.handle? i ≠ some .leftOpen ∧
    ∀ next ∈ k.perform path (.reopening i), ReopensOutside path next.1 rest

instance decidableReopensOutside (path : String) :
    ∀ (k : Clientele n) (es : List (Errand n)), Decidable (k.ReopensOutside path es)
  | _, [] => isTrue trivial
  | k, .calling i c call :: rest =>
    have : ∀ next : Clientele n × List FileReply, Decidable (next.1.ReopensOutside path rest) :=
      fun next => decidableReopensOutside path next.1 rest
    inferInstanceAs (Decidable (∀ next ∈ k.perform path (.calling i c call), _))
  | k, .reopening i :: rest =>
    have : ∀ next : Clientele n × List FileReply, Decidable (next.1.ReopensOutside path rest) :=
      fun next => decidableReopensOutside path next.1 rest
    inferInstanceAs (Decidable (_ ∧ ∀ next ∈ k.perform path (.reopening i), _))

section Seats

variable {path : String} {k k' : Clientele n} {db : Database} {i : Fin n}

/-- Every client is at an open handle, and no two of them at one. -/
structure IsSeated (k : Clientele n) : Prop where
  held : ∀ i, ∃ handle, k.handle? i = some handle ∧ handle ≠ .closed
  apart : Function.Injective k.seat

/-- At the beginning everybody sits at a handle of their own. -/
theorem isSeated_seated (db : Database) (n : Nat) : (seated db n).IsSeated where
  held i := ⟨.idle, by simp [handle?, seated], nofun⟩
  apart _ _ heq := Fin.ext heq

/-- A seat is at a handle that there is. -/
theorem IsSeated.seat_lt (h : k.IsSeated) (i : Fin n) : k.seat i < k.shared.handles.length := by
  obtain ⟨handle, hhandle, -⟩ := h.held i
  exact (List.getElem?_eq_some_iff.1 hhandle).1

/-- What becomes of the file leaves the clients at their handles. -/
theorem IsSeated.withFile (h : k.IsSeated) (file : DatabaseFile) :
    IsSeated ⟨⟨file, k.shared.handles⟩, k.seat⟩ := ⟨h.held, h.apart⟩

/-- A client is torn down, and only its handle is left inside a transaction. -/
theorem handle?_tornDown (h : k.IsSeated) (i j : Fin n) (file : DatabaseFile) :
    handle? ⟨⟨file, k.shared.handles.set (k.seat i) .leftOpen⟩, k.seat⟩ j =
      if i = j then some .leftOpen else k.handle? j := by
  unfold handle?
  split
  · next heq => rw [heq, List.getElem?_set_self (h.seat_lt j)]
  · next hne => exact List.getElem?_set_ne fun heq => hne (h.apart heq)

/-- Who is torn down keeps the seat, at a handle left inside its transaction. -/
theorem IsSeated.tornDown (h : k.IsSeated) (i : Fin n) (file : DatabaseFile) :
    IsSeated ⟨⟨file, k.shared.handles.set (k.seat i) .leftOpen⟩, k.seat⟩ where
  held j := by
    rw [handle?_tornDown h]
    split
    · exact ⟨.leftOpen, rfl, nofun⟩
    · exact h.held j
  apart := h.apart

/-- A client closes its handle and is given a new one, and the others keep theirs. -/
theorem handle?_reseated (h : k.IsSeated) (i j : Fin n) (file : DatabaseFile) :
    handle? ⟨⟨file, k.shared.handles.set (k.seat i) .closed ++ [.idle]⟩,
        Function.update k.seat i k.shared.handles.length⟩ j =
      if i = j then some .idle else k.handle? j := by
  unfold handle?
  split
  · next heq =>
      subst heq
      simp
  · next hne =>
      have hseat : Function.update k.seat i k.shared.handles.length j = k.seat j :=
        Function.update_of_ne (Ne.symm hne) _ _
      have hlt : k.seat j < (k.shared.handles.set (k.seat i) .closed).length := by
        simpa using h.seat_lt j
      simp only [hseat]
      rw [List.getElem?_append_left hlt]
      exact List.getElem?_set_ne fun heq => hne (h.apart heq)

/-- Who closes a handle and opens another sits at the new one, alone. -/
theorem IsSeated.reseated (h : k.IsSeated) (i : Fin n) (file : DatabaseFile) :
    IsSeated ⟨⟨file, k.shared.handles.set (k.seat i) .closed ++ [.idle]⟩,
      Function.update k.seat i k.shared.handles.length⟩ where
  held j := by
    rw [handle?_reseated h]
    split
    · exact ⟨.idle, rfl, nofun⟩
    · exact h.held j
  apart := by
    -- the new handle is beyond all that were there
    have hnew : ∀ j, k.seat j ≠ k.shared.handles.length := fun j => Nat.ne_of_lt (h.seat_lt j)
    intro a b heq
    dsimp only at heq
    by_cases ha : a = i <;> by_cases hb : b = i
    · rw [ha, hb]
    · rw [ha, Function.update_self, Function.update_of_ne hb] at heq
      exact absurd heq.symm (hnew b)
    · rw [hb, Function.update_self, Function.update_of_ne ha] at heq
      exact absurd heq (hnew a)
    · rw [Function.update_of_ne ha, Function.update_of_ne hb] at heq
      exact h.apart heq

/-- A client calls. -/
theorem perform_calling {handle : Handle} {session : Database.Session}
    (hfile : k.shared.file = .holding db) (hhandle : k.handle? i = some handle)
    (hsession : handle.session? db = some session) (c : Database.Contention) (call : SessionCall) :
    k.perform path (.calling i c call) = some
      (match Database.Session.answer (c, call) session with
        | (left, some result) =>
          (⟨⟨.holding left.durable, k.shared.handles⟩, k.seat⟩, [.answered result])
        | (left, none) =>
          (⟨⟨.holding left.durable, k.shared.handles.set (k.seat i) .leftOpen⟩, k.seat⟩,
            [.tornDown])) := by
  have hhandle : k.shared.handles[k.seat i]? = some handle := hhandle
  simp only [perform, SharedFile.react, hfile, hhandle, hsession, Option.map_some]
  cases Database.Session.answer (c, call) session with
  | mk left result? => cases result? <;> rfl

/-- A client closes its handle and opens the file again. -/
theorem perform_reopening (hfile : k.shared.file = .holding db) (hk : k.IsSeated) (i : Fin n) :
    k.perform path (.reopening i) = some
      (⟨⟨.holding db.migrate, k.shared.handles.set (k.seat i) .closed ++ [.idle]⟩,
        Function.update k.seat i k.shared.handles.length⟩, []) := by
  simp [perform, SharedFile.react, hfile, hk.seat_lt i, DatabaseFile.openAt]

/-- Clients that may go on in the same way: each is at a handle as the other is, and the
tables of their files are the same, one of which has some versions recorded, and the other
perhaps those after a migration. -/
structure Alike (versions : List Int) (k k' : Clientele n) : Prop where
  file : ∃ db : Database, k.shared.file = .holding db ∧
    k'.shared.file = .holding (db.withVersions versions) ∧ db.HasTables ∧
    (Database.IsRecent versions → db.versions = versions)
  seated : k.IsSeated
  seated' : k'.IsSeated
  handles : ∀ i, k.handle? i = k'.handle? i

variable {versions : List Int}

/-- **A client that reopens the file** outside a transaction changes nothing for anyone. -/
theorem Alike.reopening (h : Alike versions k k') (path : String)
    (houtside : k.handle? i ≠ some .leftOpen) :
    ∃ next, k.perform path (.reopening i) = some (next, []) ∧ Alike versions next k' := by
  obtain ⟨db, hfile, hfile', htables, hrecent⟩ := h.file
  obtain ⟨handle, hhandle, hopen⟩ := h.seated.held i
  have hidle : k.handle? i = some .idle := by
    cases handle with
    | idle => exact hhandle
    | leftOpen => exact absurd hhandle houtside
    | closed => exact absurd rfl hopen
  refine ⟨_, perform_reopening hfile h.seated i, ?_⟩
  have hmigrate := Database.migrate_of_hasTables htables
  constructor
  · refine ⟨db.migrate, rfl, ?_, ?_, ?_⟩
    · rw [hfile', hmigrate]
      rfl
    · rw [hmigrate]
      exact htables
    · intro hversions
      have hsame := hrecent hversions
      rw [Database.migrate_of_recent (hsame ▸ hversions), hsame]
  · exact h.seated.reseated i _
  · exact h.seated'
  · intro j
    rw [handle?_reseated h.seated, ← h.handles]
    split
    · next heq => rw [← heq, hidle]
    · rfl

/-- **One call** is answered alike, or tears both clients down. -/
theorem Alike.calling (h : Alike versions k k') (path : String) (i : Fin n)
    (c : Database.Contention) (call : SessionCall) :
    ∃ next next' replies, k.perform path (.calling i c call) = some (next, replies) ∧
      k'.perform path (.calling i c call) = some (next', replies) ∧
      Alike versions next next' := by
  obtain ⟨db, hfile, hfile', htables, hrecent⟩ := h.file
  obtain ⟨handle, hhandle, hopen⟩ := h.seated.held i
  have hhandle' : k'.handle? i = some handle := h.handles i ▸ hhandle
  have hsome : ∃ session, handle.session? db = some session := by
    cases handle with
    | idle | leftOpen => exact ⟨_, rfl⟩
    | closed => exact absurd rfl hopen
  obtain ⟨session, hsession⟩ := hsome
  have hsession' := Database.session?_withVersions hsession versions
  have hversions := Database.versions_answer hsession c call
  have htables' := Database.hasTables_answer hsession htables c call
  rw [perform_calling hfile hhandle hsession, perform_calling hfile' hhandle' hsession',
    Database.Session.answer_withVersions]
  cases hanswer : Database.Session.answer (c, call) session with
  | mk left result? =>
      rw [hanswer] at hversions htables'
      have hleft : ∃ db' : Database, (DatabaseFile.holding left.durable) = .holding db' ∧
          DatabaseFile.holding (left.withVersions versions).durable =
            .holding (db'.withVersions versions) ∧ db'.HasTables ∧
          (Database.IsRecent versions → db'.versions = versions) :=
        ⟨_, rfl, by rw [Database.Session.durable_withVersions], htables',
          fun hrecent' => hversions.trans (hrecent hrecent')⟩
      cases result? with
      | some result =>
          exact ⟨_, _, _, rfl, rfl, hleft, h.seated.withFile _, h.seated'.withFile _, h.handles⟩
      | none =>
          refine ⟨_, _, _, rfl, rfl, hleft, h.seated.tornDown i _, h.seated'.tornDown i _, ?_⟩
          intro j
          rw [handle?_tornDown h.seated, handle?_tornDown h.seated', h.handles]

end Seats

/-- **Clients that reopen the file** at any times outside transactions, and clients that do
not. -/
theorem Alike.of_errands {versions : List Int} {k k' : Clientele n} (h : Alike versions k k')
    {path : String} {es : List (Errand n)} (hes : k.ReopensOutside path es)
    (log : List FileReply) :
    ∃ left left' log', Run (step path) (k, log) es (left, log') ∧
      Run (step path) (k', log) (es.filter Errand.isCall) (left', log') ∧
      Alike versions left left' := by
  induction es generalizing k k' log with
  | nil => exact ⟨k, k', log, .nil, .nil, h⟩
  | cons e rest ih =>
      cases e with
      | reopening i =>
          obtain ⟨houtside, hrest⟩ := hes
          obtain ⟨next, hperform, hnext⟩ := h.reopening path houtside
          have hstep : step path (k, log) (.reopening i) = some (next, log) := by
            rw [step, hperform, Option.map_some, List.append_nil]
          obtain ⟨left, left', log', hrun, hrun', hleft⟩ := ih hnext (hrest _ hperform) log
          rw [List.filter_cons_of_neg (by simp [Errand.isCall])]
          exact ⟨left, left', log', (Run.single hstep).append hrun, hrun', hleft⟩
      | calling i c call =>
          obtain ⟨next, next', replies, hperform, hperform', hnext⟩ := h.calling path i c call
          have hstep : step path (k, log) (.calling i c call) = some (next, log ++ replies) := by
            rw [step, hperform, Option.map_some]
          have hstep' : step path (k', log) (.calling i c call) =
              some (next', log ++ replies) := by
            rw [step, hperform', Option.map_some]
          obtain ⟨left, left', log', hrun, hrun', hleft⟩ :=
            ih hnext (hes _ hperform) (log ++ replies)
          rw [List.filter_cons_of_pos rfl]
          exact ⟨left, left', log', (Run.single hstep).append hrun,
            (Run.single hstep').append hrun', hleft⟩

end Clientele

/-- **Reopening is transparent** outside transactions.  Open a file whatever tables are in it
and whatever versions are recorded.  All tables that are there stay as they are.  If some
version is 1 or more, nothing is created; otherwise the tables that are missing are, without
rows, and version 1 is recorded.  Opening the file once more changes nothing, and opening it
after a migration that was broken off comes to the same.

Let any number of clients with handles of their own work with a database that has both
tables, and reopen it as often as each of them likes, but not at a handle that a claim has
left inside its transaction.  Every call is answered as it is if nobody reopens it, and the
tables come to be the same; so do the recorded versions, unless none of them is 1 or more. -/
theorem reopening_is_transparent (path : String) {file : DatabaseFile} {db : Database}
    (h : file.contents? = some db) :
    ∃ opened, file.openAt path = .ok opened ∧
    (∀ table, db.targets = some table → opened.targets = some table) ∧
    (∀ table, db.history = some table → opened.history = some table) ∧
    ((∃ v ∈ db.versions, 1 ≤ v) → opened = db) ∧
    ((∀ v ∈ db.versions, v < 1) → opened =
      { targets := some (db.targets.getD ⟨∅, []⟩)
        history := some (db.history.getD ⟨∅, []⟩)
        versions := db.versions ++ [1] }) ∧
    (DatabaseFile.holding opened).openAt path = .ok opened ∧
    (∀ count, (DatabaseFile.holding (db.begun count)).openAt path = .ok opened) ∧
    (db.targets.isSome → db.history.isSome → ∀ (n : Nat) (es : List (Errand n)),
      (Clientele.seated db n).ReopensOutside path es →
      ∃ k k' log left left',
        Run (Clientele.step path) (.seated db n, []) es (k, log) ∧
        Run (Clientele.step path) (.seated db n, []) (es.filter Errand.isCall) (k', log) ∧
        k.shared.file = .holding left ∧ k'.shared.file = .holding left' ∧
        left.targets = left'.targets ∧ left.history = left'.history ∧
        ((∃ v ∈ db.versions, 1 ≤ v) → left = left')) := by
  refine ⟨db.migrate, DatabaseFile.openAt_of_contents h path, ?_, ?_,
    Database.migrate_of_recent, ?_, ?_, ?_, ?_⟩
  · exact fun table htable => Database.targets_migrate htable
  · exact fun table htable => Database.history_migrate htable
  · intro hversions
    refine Database.migrate_of_outdated ?_
    rintro ⟨v, hv, hrecent⟩
    exact absurd (hversions v hv) (Int.not_lt.2 hrecent)
  · exact congrArg Except.ok db.migrate_migrate
  · exact fun count => congrArg Except.ok (db.migrate_begun count)
  · intro htargets hhistory n es hes
    have hseated := Clientele.isSeated_seated db n
    have halike : Clientele.Alike db.versions (.seated db n) (.seated db n) :=
      ⟨⟨db, rfl, rfl, ⟨htargets, hhistory⟩, fun _ => rfl⟩, hseated, hseated, fun _ => rfl⟩
    obtain ⟨k, k', log, hrun, hrun', hleft⟩ := halike.of_errands hes []
    obtain ⟨left, hfile, hfile', -, hrecent⟩ := hleft.file
    refine ⟨k, k', log, left, _, hrun, hrun', hfile, hfile', rfl, rfl, ?_⟩
    intro hversions
    rw [← hrecent hversions]
    rfl

/-- Two clients of a database without a recent version, which both reopen.  A claim tears the
first of them down, and what it asks at its handle from then on fails; the other one finds the
file locked. -/
theorem reopening_is_transparent_two_clients :
    ∃ (db opened : Database) (locked : Hindrance) (es : List (Errand 2)) (k k' : Clientele 2)
      (log : List FileReply),
      (DatabaseFile.holding db).openAt "peers.db" = .ok opened ∧
      db.versions = [0, -1] ∧ opened.versions = [0, -1, 1] ∧
      es.map Errand.isCall = [false, true, false, true, true, false, true, true] ∧
      (Clientele.seated db 2).ReopensOutside "peers.db" es ∧
      Run (Clientele.step "peers.db") (.seated db 2, []) es (k, log) ∧
      Run (Clientele.step "peers.db") (.seated db 2, []) (es.filter Errand.isCall) (k', log) ∧
      log = [.answered (.ok (.upserted 1)), .answered (.ok (.recorded ⟨1, 0, 1⟩)), .tornDown,
        .answered (.error (.unavailable locked)),
        .answered (.error (.unavailable .withinTransaction))] ∧
      (k.shared.file.contents?.bind (·.targets)).map (fun table => table.rows.entries.length) =
        some 1 := by
  let db : Database := ⟨some ⟨∅, []⟩, some ⟨∅, []⟩, [0, -1]⟩
  let locked : Hindrance := .described "SQLite failure: `database is locked`"
  let torn : SessionCall := .store (.claim (Database.claimBound + 1) default)
  let batch : SessionCall := .store (.record [.ofOutcome .nil ⟨default, default, 7, none⟩])
  let es : List (Errand 2) :=
    [.reopening 0, .calling 0 .free (.upsert [.fresh default "peer:1" .ping]), .reopening 0,
      .calling 1 .free batch, .calling 0 .free torn, .reopening 1,
      .calling 1 ⟨some locked, none⟩ batch, .calling 0 .free (.store (.claim 1 default))]
  have hes : (Clientele.seated db 2).ReopensOutside "peers.db" es := by decide +kernel
  have hrun : (es.foldlM (Clientele.step "peers.db") (.seated db 2, [])).any fun now =>
      now.2 = [.answered (.ok (.upserted 1)), .answered (.ok (.recorded ⟨1, 0, 1⟩)), .tornDown,
        .answered (.error (.unavailable locked)),
        .answered (.error (.unavailable .withinTransaction))] ∧
      (now.1.shared.file.contents?.bind (·.targets)).map
        (fun table => table.rows.entries.length) = some 1 := by
    decide +kernel
  obtain ⟨opened, hopened, -, -, -, houtdated, -, -, hclients⟩ :=
    reopening_is_transparent "peers.db" (rfl : (DatabaseFile.holding db).contents? = some db)
  obtain ⟨k, k', log, -, -, hreopened, hplain, -⟩ := hclients rfl rfl 2 es hes
  obtain rfl := houtdated (by decide)
  rw [Run.iff_foldlM.1 hreopened] at hrun
  obtain ⟨hlog, hrows⟩ := of_decide_eq_true hrun
  exact ⟨db, _, locked, es, k, k', log, hopened, rfl, rfl, rfl, hes, hreopened, hplain, hlog,
    hrows⟩

/-- **Reopening shows after a torn claim.**  A claim for which there is no room tears a client
down.  At the handle where it is left no batch is taken, and at a new one it is. -/
theorem reopening_shows_after_torn_claim :
    ∃ (db : Database) (es : List (Errand 1)) (k k' : Clientele 1),
      db.targets.isSome ∧ db.history.isSome ∧ es.map Errand.isCall = [true, false, true] ∧
      Run (Clientele.step "peers.db") (.seated db 1, []) es
        (k, [.tornDown, .answered (.ok (.recorded ⟨0, 0, 1⟩))]) ∧
      Run (Clientele.step "peers.db") (.seated db 1, []) (es.filter Errand.isCall)
        (k', [.tornDown, .answered (.error (.unavailable .withinTransaction))]) := by
  let es : List (Errand 1) :=
    [.calling 0 .free (.store (.claim (Database.claimBound + 1) default)), .reopening 0,
      .calling 0 .free (.store (.record [.ofOutcome .nil ⟨default, default, 7, none⟩]))]
  let start : Clientele 1 := .seated Database.blank.migrate 1
  have hrun : (es.foldlM (Clientele.step "peers.db") (start, [])).any fun now =>
      now.2 = [.tornDown, .answered (.ok (.recorded ⟨0, 0, 1⟩))] := by
    decide +kernel
  have hrun' : ((es.filter Errand.isCall).foldlM (Clientele.step "peers.db") (start, [])).any
      fun now => now.2 = [.tornDown, .answered (.error (.unavailable .withinTransaction))] := by
    decide +kernel
  obtain ⟨⟨k, log⟩, h, hlog⟩ := Run.exists_of_any hrun
  obtain ⟨⟨k', log'⟩, h', hlog'⟩ := Run.exists_of_any hrun'
  obtain rfl := of_decide_eq_true hlog
  obtain rfl := of_decide_eq_true hlog'
  exact ⟨_, es, k, k', rfl, rfl, rfl, h, h'⟩

end PeerWatch
