import PeerWatch.Store.Database

/-!
# What a transaction leaves

Work on the tables may fail at any of its statements, and the tables are then
as far as it had got.  A transaction around it lets nobody see that: whatever
the work is and whoever else holds the file, the session either has what the
work left or what was there before, and it is outside any transaction.

Work that tears its caller down is the exception: the session stays inside the
transaction, and begins no other.  Only a claim can do so.

* `Database.effect_bind`, `bind_ok_iff` — statements one after another;
* `Session.AllOrNothing`, `Session.transact_allOrNothing`;
* `Session.transact_ok_iff`, `leave_transact` — a transaction that nobody hinders;
* `Session.transact_of_checkpoint` — a transaction within another;
* `Session.claim_of_room`, `claim_of_no_room` — the two kinds of claims.
-/

namespace PeerWatch

namespace Database

/-- The result of some work, and the tables it leaves. -/
def effect {α : Type} (work : Work α) (db : Database) : Except StoreError α × Database :=
  work.run.run db

section Statements

variable {α β : Type} {db db' : Database}

theorem pure_ok_iff {a b : α} :
    effect (pure a : Work α) db = (.ok b, db') ↔ b = a ∧ db' = db := by
  have hpure : effect (pure a : Work α) db = (.ok a, db) := rfl
  rw [hpure, Prod.mk.injEq, Except.ok.injEq]
  exact and_congr eq_comm eq_comm

/-- Reading a value that may be missing is no statement. -/
theorem effect_lift (result : Except StoreError α) (db : Database) :
    effect (ExceptT.mk (pure result)) db = (result, db) := rfl

/-- So it succeeds where the value is there. -/
theorem lift_ok_iff {result : Except StoreError α} {a : α} :
    effect (ExceptT.mk (pure result) : Work α) db = (.ok a, db') ↔ result = .ok a ∧ db' = db := by
  rw [effect_lift, Prod.mk.injEq]
  exact and_congr_right' eq_comm

/-- Work after work: the second begins where the first one ended, unless that failed. -/
theorem effect_bind (work : Work α) (next : α → Work β) (db : Database) :
    effect (work >>= next) db = match effect work db with
      | (.ok a, between) => effect (next a) between
      | (.error e, between) => (.error e, between) := by
  cases h : effect work db with
  | mk result between =>
      have h : work.run.run db = (result, between) := h
      unfold effect
      rw [ExceptT.run_bind, StateT.run_bind, h]
      cases result <;> rfl

/-- What is made of the result of some work changes nothing else. -/
theorem effect_map (f : α → β) (work : Work α) (db : Database) :
    effect (f <$> work) db = ((effect work db).1.map f, (effect work db).2) := by
  rw [← bind_pure_comp, effect_bind]
  cases effect work db with
  | mk result left => cases result <;> rfl

/-- Work in two parts succeeds when both do. -/
theorem bind_ok_iff {work : Work α} {next : α → Work β} {b : β} :
    effect (work >>= next) db = (.ok b, db') ↔
      ∃ a between, effect work db = (.ok a, between) ∧ effect (next a) between = (.ok b, db') := by
  rw [effect_bind]
  cases h : effect work db with
  | mk result between =>
      cases result with
      | error e => simp
      | ok a =>
          constructor
          · intro hnext
            exact ⟨a, between, rfl, hnext⟩
          · intro hdone
            rcases hdone with ⟨a', between', heq, hnext⟩
            obtain ⟨ha, rfl⟩ := Prod.mk.injEq .. ▸ heq
            obtain rfl := Except.ok.inj ha
            exact hnext

/-- Renaming the errors of some work changes nothing else. -/
theorem effect_tryCatch_throw (work : Work α) (rename : StoreError → StoreError) (db : Database) :
    effect (tryCatch work fun e => throw (rename e)) db =
      ((effect work db).1.mapError rename, (effect work db).2) := by
  cases h : effect work db with
  | mk result between =>
      have h : work.run.run db = (result, between) := h
      unfold effect
      simp only [tryCatch, tryCatchThe, MonadExceptOf.tryCatch, ExceptT.tryCatch]
      change (bind (m := StateM Database) work.run _).run db = _
      rw [StateT.run_bind, h]
      cases result <;> rfl

/-- Nor does it make the work succeed. -/
theorem tryCatch_throw_ok_iff {work : Work α} {rename : StoreError → StoreError} {a : α} :
    effect (tryCatch work fun e => throw (rename e)) db = (.ok a, db') ↔
      effect work db = (.ok a, db') := by
  rw [effect_tryCatch_throw]
  cases effect work db with
  | mk result between =>
      cases result with
      | ok v => exact Iff.rfl
      | error e =>
          constructor
          · intro hok
            cases hok
          · intro hok
            cases hok

end Statements

namespace Session

variable {α : Type}

/-- What a session with some tables, outside any transaction, made of some work:
either all of it and the tables are kept, or it failed and nothing happened. -/
structure AllOrNothing (db : Database) (work : Work α) (outcome : Session × Except StoreError α) :
    Prop where
  failed : ∀ e, outcome.2 = .error e → outcome.1 = idle db
  done : ∀ v, outcome.2 = .ok v → ∃ left, effect work db = (.ok v, left) ∧ outcome.1 = idle left

/-- Work performed by a session changes its tables as it changes any. -/
theorem perform_eq (s : Session) (work : Work α) :
    s.perform work = ({ s with tables := (effect work s.tables).2 }, (effect work s.tables).1) :=
  rfl

/-- **A transaction is all or nothing,** at whichever statement its work fails,
and whether or not it may begin and be kept. -/
theorem transact_allOrNothing (db : Database) (c : Contention) (work : Work α) :
    AllOrNothing db work ((idle db).transact c work) := by
  unfold transact
  cases hbegin : c.atBegin with
  | some hindrance => exact ⟨fun _ _ => rfl, fun _ h => by cases h⟩
  | none =>
      have hopen : (idle db).begin none = .ok ⟨db, some db⟩ := rfl
      simp only [hopen, perform_eq]
      cases hwork : effect work db with
      | mk result left =>
          cases result with
          | error e =>
              exact ⟨fun _ _ => rfl, fun _ h => by cases h⟩
          | ok v =>
              simp only [finish]
              cases hcommit : c.atCommit with
              | some hindrance => exact ⟨fun _ _ => rfl, fun _ h => by cases h⟩
              | none =>
                  refine ⟨fun _ h => (by cases h), fun _ h => ⟨left, ?_, rfl⟩⟩
                  rw [hwork]
                  exact congrArg (·, left) h

/-- A transaction that nobody hinders is what its work is, but that work which
fails leaves nothing. -/
theorem transact_free (db : Database) (work : Work α) :
    (idle db).transact .free work = match effect work db with
      | (.ok v, left) => (idle left, .ok v)
      | (.error e, _) => (idle db, .error e) := by
  have hopen : (idle db).begin Contention.free.atBegin = .ok ⟨db, some db⟩ := rfl
  unfold transact
  simp only [hopen, perform_eq]
  cases hwork : effect work db with
  | mk result left => cases result <;> rfl

/-- All that it did is committed. -/
theorem leave_transact (db : Database) (work : Work α) :
    leave ((idle db).transact .free work) = match effect work db with
      | (.ok v, left) => (left, .ok v)
      | (.error e, _) => (db, .error e) := by
  rw [transact_free]
  cases hwork : effect work db with
  | mk result left => cases result <;> rfl

/-- And the session is ready for the next. -/
theorem transact_free_eq_idle (db : Database) (work : Work α) :
    (idle db).transact .free work =
      (idle (leave ((idle db).transact .free work)).1,
        (leave ((idle db).transact .free work)).2) := by
  rw [transact_free]
  cases hwork : effect work db with
  | mk result left => cases result <;> rfl

/-- A transaction succeeds when it is not within another, nobody hinders it and its work
succeeds. -/
theorem transact_ok_iff {s s' : Session} {c : Contention} {work : Work α} {v : α} :
    s.transact c work = (s', .ok v) ↔
      c = .free ∧ s.checkpoint = none ∧ s'.checkpoint = none ∧
        effect work s.tables = (.ok v, s'.tables) := by
  obtain ⟨atBegin, atCommit⟩ := c
  obtain ⟨tables, checkpoint⟩ := s
  unfold transact
  cases checkpoint with
  | some before => simp [begin]
  | none =>
      cases atBegin with
      | some hindrance => simp [begin, Contention.free]
      | none =>
          simp only [begin, perform_eq]
          cases hwork : effect work tables with
          | mk result left =>
              cases result with
              | error e => simp [finish]
              | ok a =>
                  obtain ⟨tables', checkpoint'⟩ := s'
                  cases atCommit <;> simp [finish, commit, Contention.free]
                  grind

/-- A transaction that nobody hinders succeeds when its work does. -/
theorem leave_transact_ok_iff {db db' : Database} {work : Work α} {v : α} :
    leave ((idle db).transact .free work) = (db', .ok v) ↔ effect work db = (.ok v, db') := by
  rw [leave_transact]
  cases hwork : effect work db with
  | mk result left =>
      cases result with
      | error e => simp
      | ok a =>
          rw [Prod.mk.injEq, Prod.mk.injEq]
          exact and_comm

/-- There is no transaction within another. -/
theorem transact_of_checkpoint {s : Session} {checkpoint : Database}
    (h : s.checkpoint = some checkpoint) (c : Contention) (work : Work α) :
    s.transact c work = (s, .error (.unavailable .withinTransaction)) := by
  obtain ⟨tables, checkpoint'⟩ := s
  obtain rfl : checkpoint' = some checkpoint := h
  rfl

end Session

section Claims

open Calendar

variable {limit : Nat}

/-- Work that always gives something tears nobody down. -/
theorem Session.transact?_some {α : Type} (s : Session) (c : Contention) (work : Work α) :
    s.transact? c (some <$> work) = (s.transact c work).map id some := by
  unfold transact? transact
  cases s.begin c.atBegin with
  | error e => rfl
  | ok opened =>
      simp only [perform_eq, effect_map]
      cases effect work opened.tables with
      | mk result left => cases result <;> rfl

/-- The statements of a claim are the same where there is room for its answer. -/
theorem claimWork?_of_room (h : limit ≤ claimBound) (now : Instant) :
    claimWork? limit now = some <$> claimWork limit now := by
  unfold claimWork? claimWork
  rw [map_bind]
  refine congrArg _ (funext fun moment => ?_)
  rw [map_bind]
  refine congrArg _ (funext fun table => ?_)
  exact if_neg (Nat.not_lt.2 h)

/-- Where there is none, all of them only look for the table. -/
theorem effect_claimWork?_of_no_room (h : claimBound < limit) (now : Instant) (db : Database) :
    effect (claimWork? limit now) db = (do
      let _ ← decodeMillis now.toMillis
      if db.targets.isSome then pure none else throw (.unavailable (.noTable .targets)), db) := by
  unfold claimWork?
  rw [effect_bind, effect_lift]
  cases decodeMillis now.toMillis with
  | error e => rfl
  | ok moment =>
      dsimp only
      rw [effect_bind]
      obtain ⟨targets, history, versions⟩ := db
      cases targets with
      | none => rfl
      | some table =>
          have hnone : ∀ table : TargetTable, (if claimBound < limit then pure none
              else some <$> handOut table limit now moment : Work (Option (List Target))) =
              pure none := fun _ => if_pos h
          simp only [hnone]
          rfl

namespace Session

/-- **A claim for whose answer there is room** is a transaction like any other. -/
theorem claim_of_room (h : limit ≤ claimBound) (s : Session) (c : Contention) (now : Instant) :
    s.claim c limit now = if limit = 0 then (s, some (.ok []))
      else (s.transact c (claimWork limit now)).map id some := by
  unfold claim
  rw [claimWork?_of_room h, transact?_some]

/-- **A claim for whose answer there is none,** made outside any transaction, fails if it
may not begin, if its moment cannot be told, or if there is no table; otherwise it tears
its caller down, having written nothing. -/
theorem claim_of_no_room (h : claimBound < limit) (db : Database) (c : Contention)
    (now : Instant) :
    (idle db).claim c limit now = match c.atBegin, decodeMillis now.toMillis, db.targets with
      | some hindrance, _, _ => (idle db, some (.error (.unavailable hindrance)))
      | none, .error e, _ => (idle db, some (.error e))
      | none, .ok _, none => (idle db, some (.error (.unavailable (.noTable .targets))))
      | none, .ok _, some _ => (⟨db, some db⟩, none) := by
  unfold claim transact?
  rw [if_neg (Nat.ne_of_gt (Nat.lt_of_le_of_lt (Nat.zero_le _) h))]
  cases c.atBegin with
  | some hindrance => rfl
  | none =>
      have hopen : (idle db).begin none = .ok ⟨db, some db⟩ := rfl
      simp only [hopen, perform_eq, effect_claimWork?_of_no_room h]
      cases decodeMillis now.toMillis with
      | error e => rfl
      | ok moment =>
          obtain ⟨targets, history, versions⟩ := db
          cases targets <;> rfl

/-- Within a transaction it is like any other. -/
theorem claim_of_checkpoint {s : Session} {checkpoint : Database}
    (h : s.checkpoint = some checkpoint) (c : Contention) (limit : Nat) (now : Instant) :
    s.claim c limit now =
      (s, some (if limit = 0 then .ok [] else .error (.unavailable .withinTransaction))) := by
  obtain ⟨tables, checkpoint'⟩ := s
  obtain rfl : checkpoint' = some checkpoint := h
  unfold claim
  split
  · rfl
  · rfl

end Session

end Claims

end Database

end PeerWatch
