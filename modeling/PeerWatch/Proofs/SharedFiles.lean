import PeerWatch.Proofs.Pipeline.Runs
import PeerWatch.Proofs.UntamperedTables

/-!
# A file in several hands

A database file is opened by any number of sessions, in one process or in
several, and each of them asks what it wants when it wants.  The file lets one
of them write at a time, so calls take place one after another, some of them
refused for the sake of others.  As long as nobody but such sessions writes
into the file, nobody is ever told that it is corrupt.

A claim whose answer there can be no room for tears its caller down, inside its
transaction: the handle stays there and begins no other.  Opening a file may be
broken off, as it is when two begin it at once, and leaves a part of the schema.

* `Handle`, `SharedFile`, `SharedFile.react` — a file, and what becomes of it;
* `SharedFile.Moves`, `SharedFile.moves_of_react` — all that can happen to it;
* `Database.Session.error_of_answer` — why a call may fail;
* `SharedFile.IsUntampered.react`, `.of_run` — one event, and a run of them;
* `SharedFile.ToldBy` — why errors were reported;
* `SharedFile.untampered_is_never_corrupt` — what the sessions are told.
-/

namespace PeerWatch

open Calendar

/-- What a session has of a file. -/
inductive Handle where
  /-- Outside any transaction. -/
  | idle
  /-- Inside a transaction that wrote nothing, where a claim tore its caller down. -/
  | leftOpen
  | closed
deriving DecidableEq

/-- The session of a handle, over what the file holds. -/
def Handle.session? (db : Database) : Handle → Option Database.Session
  | .idle => some (.idle db)
  | .leftOpen => some ⟨db, some db⟩
  | .closed => none

/-- Only at a handle outside any transaction is a caller torn down, and the file then holds
what it did. -/
theorem Handle.eq_idle_of_tornDown {db : Database} {handle : Handle} {session left : Database.Session}
    (hsession : handle.session? db = some session) {call : Database.Contention × SessionCall}
    (htorn : Database.Session.answer call session = (left, none)) :
    handle = .idle ∧ left.durable = db := by
  cases handle with
  | idle =>
      obtain rfl := Option.some.inj hsession
      obtain ⟨-, hleft⟩ := Database.Session.answer_tornDown (congrArg Prod.snd htorn)
      rw [htorn] at hleft
      have hleft : left = ⟨db, some db⟩ := hleft
      rw [hleft]
      exact ⟨rfl, rfl⟩
  | leftOpen =>
      obtain rfl := Option.some.inj hsession
      obtain ⟨result, hanswer⟩ := Database.Session.answer_of_checkpoint db db call
      rw [hanswer] at htorn
      cases htorn
  | closed => cases hsession

/-- A file and the handles on it, in the order in which they were opened. -/
structure SharedFile where
  file : DatabaseFile
  handles : List Handle

/-- Something done with a file. -/
inductive FileEvent where
  /-- Opens the file; what hinders it does so after so many statements. -/
  | opening (hindered : Option (Nat × Hindrance))
  | closing (i : Nat)
  /-- A call of the session of a handle, under what other hands refuse it. -/
  | calling (i : Nat) (c : Database.Contention) (call : SessionCall)

/-- What comes of it. -/
inductive FileReply where
  | opened
  | notOpened (e : StoreError)
  | closed
  | tornDown
  | answered (result : Except StoreError StoreAnswer)
deriving DecidableEq

/-- The error that is reported, if one is. -/
def FileReply.error? : FileReply → Option StoreError
  | .notOpened e => some e
  | .answered (.error e) => some e
  | _ => none

/-- What there is to go on with when a file is opened. -/
def DatabaseFile.contents? : DatabaseFile → Option Database
  | .absent => some .blank
  | .holding db => some db
  | .garbage => none
  | .blocked => none

namespace FileEvent

/-- The instants of the event are in no leap second. -/
def IsPlain : FileEvent → Prop
  | .calling _ _ call => call.IsPlain
  | _ => True

/-- The records that the event brings. -/
def records : FileEvent → List OutcomeRecord
  | .opening _ => []
  | .closing _ => []
  | .calling _ _ call => call.records

/-- The handle of the event is there, and open if it is asked for something. -/
def CanBefall (handles : List Handle) : FileEvent → Prop
  | .opening _ => True
  | .closing i => i < handles.length
  | .calling i _ _ => ∃ handle, handles[i]? = some handle ∧ handle ≠ .closed

/-- What the event is refused, or may be. -/
def hindrances : FileEvent → List Hindrance
  | .opening hindered => hindered.toList.map (·.2)
  | .closing _ => []
  | .calling _ c _ => c.atBegin.toList ++ c.atCommit.toList

end FileEvent

namespace SharedFile

/-- There is no file yet. -/
def new : SharedFile := ⟨.absent, []⟩

/-- What comes of an event, and the file after it. -/
def react (path : String) (s : SharedFile) : FileEvent → Option (SharedFile × FileReply)
  | .opening none =>
    match s.file.openAt path with
    | .ok db => some (⟨.holding db, s.handles ++ [.idle]⟩, .opened)
    | .error e => some (s, .notOpened e)
  | .opening (some (count, hindrance)) =>
    s.file.contents?.map fun db =>
      (⟨.holding (db.begun count), s.handles⟩, .notOpened (.unavailable hindrance))
  | .closing i =>
    if i < s.handles.length then some (⟨s.file, s.handles.set i .closed⟩, .closed) else none
  | .calling i c call =>
    match s.file, s.handles[i]? with
    | .holding db, some handle =>
      (handle.session? db).map fun session =>
        match Database.Session.answer (c, call) session with
        | (left, some result) => (⟨.holding left.durable, s.handles⟩, .answered result)
        | (left, none) => (⟨.holding left.durable, s.handles.set i .leftOpen⟩, .tornDown)
    | _, _ => none

/-- A step of a run, with what came of each event so far. -/
def step (path : String) (now : SharedFile × List (FileEvent × FileReply)) (e : FileEvent) :
    Option (SharedFile × List (FileEvent × FileReply)) :=
  (now.1.react path e).map fun next => (next.1, now.2 ++ [(e, next.2)])

/-- All that can happen to a file. -/
inductive Moves (path : String) (s : SharedFile) : FileEvent → SharedFile → FileReply → Prop
  | opened {db : Database} (h : s.file.openAt path = .ok db) :
    Moves path s (.opening none) ⟨.holding db, s.handles ++ [.idle]⟩ .opened
  | notOpened {e : StoreError} (h : s.file.openAt path = .error e) :
    Moves path s (.opening none) s (.notOpened e)
  | brokenOff {db : Database} (h : s.file.contents? = some db) (count : Nat)
    (hindrance : Hindrance) :
    Moves path s (.opening (some (count, hindrance))) ⟨.holding (db.begun count), s.handles⟩
      (.notOpened (.unavailable hindrance))
  | closed {i : Nat} (h : i < s.handles.length) :
    Moves path s (.closing i) ⟨s.file, s.handles.set i .closed⟩ .closed
  | tornDown {db : Database} (hfile : s.file = .holding db) {i : Nat}
    (hhandle : s.handles[i]? = some .idle) {c : Database.Contention} {call : SessionCall}
    (htorn : (Database.Session.answer (c, call) (.idle db)).2 = none) :
    Moves path s (.calling i c call) ⟨s.file, s.handles.set i .leftOpen⟩ .tornDown
  | answered {db : Database} (hfile : s.file = .holding db) {i : Nat} {handle : Handle}
    (hhandle : s.handles[i]? = some handle) {session : Database.Session}
    (hsession : handle.session? db = some session) {c : Database.Contention}
    {call : SessionCall} {result : Except StoreError StoreAnswer}
    (hresult : (Database.Session.answer (c, call) session).2 = some result) :
    Moves path s (.calling i c call)
      ⟨.holding (Database.Session.answer (c, call) session).1.durable, s.handles⟩
      (.answered result)

/-- Whatever happens to a shared file is one of its moves. -/
theorem moves_of_react {path : String} {s s' : SharedFile} {e : FileEvent} {reply : FileReply}
    (h : s.react path e = some (s', reply)) : s.Moves path e s' reply := by
  unfold react at h
  split at h
  case h_1 =>
    split at h
    · next hopen =>
        obtain ⟨rfl, rfl⟩ := Prod.mk.inj (Option.some.inj h)
        exact .opened hopen
    · next hopen =>
        obtain ⟨rfl, rfl⟩ := Prod.mk.inj (Option.some.inj h)
        exact .notOpened hopen
  case h_2 count hindrance =>
    obtain ⟨db, hcontents, heq⟩ := Option.map_eq_some_iff.1 h
    obtain ⟨rfl, rfl⟩ := Prod.mk.inj heq
    exact .brokenOff hcontents count hindrance
  case h_3 =>
    split at h
    · next hi =>
        obtain ⟨rfl, rfl⟩ := Prod.mk.inj (Option.some.inj h)
        exact .closed hi
    · cases h
  case h_4 =>
    split at h
    · next hfile hhandle =>
        obtain ⟨session, hsession, heq⟩ := Option.map_eq_some_iff.1 h
        split at heq
        · next left result hanswer =>
            obtain ⟨rfl, rfl⟩ := Prod.mk.inj heq
            have hmoves : s.Moves path _ _ _ :=
              .answered hfile hhandle hsession (congrArg Prod.snd hanswer)
            rwa [hanswer] at hmoves
        · next left hanswer =>
            obtain ⟨rfl, rfl⟩ := Prod.mk.inj heq
            obtain ⟨rfl, hleft⟩ := Handle.eq_idle_of_tornDown hsession hanswer
            obtain rfl := Option.some.inj hsession
            rw [hleft, ← hfile]
            exact .tornDown hfile hhandle (congrArg Prod.snd hanswer)
    · cases h

end SharedFile

namespace Database.Session

variable {α β : Type}

/-- What keeps a session from a transaction, or from keeping it. -/
def Hinders (s : Session) (c : Contention) (hindrance : Hindrance) : Prop :=
  hindrance ∈ c.atBegin ∨ hindrance ∈ c.atCommit ∨
    s.checkpoint.isSome ∧ hindrance = .withinTransaction

/-- Whatever the state of a session, a transaction fails for its work, or because
the session was hindered. -/
theorem error_of_transact {s : Session} {c : Contention} {work : Work α} {e : StoreError}
    (h : (s.transact c work).2 = .error e) :
    (effect work s.tables).1 = .error e ∨
      ∃ hindrance, e = .unavailable hindrance ∧ s.Hinders c hindrance := by
  unfold transact begin at h
  split at h
  · next e' hbegin =>
      obtain rfl : e' = e := Except.error.inj h
      split at hbegin
      · next hwithin =>
          refine .inr ⟨_, (Except.error.inj hbegin).symm, .inr (.inr ⟨?_, rfl⟩)⟩
          rw [hwithin]
          rfl
      · next hindrance _ hrefused =>
          exact .inr ⟨hindrance, (Except.error.inj hbegin).symm, .inl hrefused⟩
      · cases hbegin
  · next opened hbegin =>
      have htables : opened.tables = s.tables := by
        split at hbegin
        · cases hbegin
        · cases hbegin
        · rw [← Except.ok.inj hbegin]
      rw [perform_eq, htables] at h
      cases hwork : effect work s.tables with
      | mk result left =>
          rw [hwork] at h
          cases result with
          | error e' => exact .inl h
          | ok v =>
              unfold finish commit at h
              cases hcommit : c.atCommit with
              | none =>
                  rw [hcommit] at h
                  cases h
              | some hindrance =>
                  rw [hcommit] at h
                  exact .inr ⟨hindrance, (Except.error.inj h).symm, .inr (.inl hcommit)⟩

/-- Work that may tear its caller down fails as it would if it did not. -/
theorem error_of_transact? {s : Session} {c : Contention} {work : Work (Option α)} {e : StoreError}
    (h : (s.transact? c work).2 = some (.error e)) : (s.transact c work).2 = .error e := by
  have hsame : ∀ {e' : StoreError}, some (Except.error e' : Except StoreError α) = some (.error e) →
      (Except.error e' : Except StoreError (Option α)) = .error e := by
    intro e' heq
    rw [Except.error.inj (Option.some.inj heq)]
  unfold transact? at h
  unfold transact
  cases hbegin : s.begin c.atBegin with
  | error e' =>
      rw [hbegin] at h
      exact hsame h
  | ok opened =>
      simp only [hbegin, perform_eq] at h ⊢
      cases hwork : effect work opened.tables with
      | mk result left =>
          simp only [hwork] at h ⊢
          cases result with
          | error e' => exact hsame h
          | ok value? =>
              cases value? with
              | none => cases h
              | some value =>
                  unfold finish at h ⊢
                  dsimp only at h ⊢
                  cases hcommit : commit ⟨left, opened.checkpoint⟩ c.atCommit with
                  | error e' =>
                      rw [hcommit] at h
                      exact hsame h
                  | ok kept =>
                      rw [hcommit] at h
                      cases h

/-- A claim fails for the same statements whether or not there is room for its answer. -/
theorem error_of_claimWork? {limit : Nat} {now : Instant} {db : Database} {e : StoreError}
    (h : (effect (claimWork? limit now) db).1 = .error e) :
    (effect (claimWork limit now) db).1 = .error e := by
  by_cases hroom : limit ≤ claimBound
  · rw [claimWork?_of_room hroom, effect_map] at h
    cases hresult : (effect (claimWork limit now) db).1 with
    | ok ts =>
        rw [hresult] at h
        cases h
    | error e' =>
        rw [hresult] at h
        obtain rfl : e' = e := Except.error.inj h
        rfl
  · rw [effect_claimWork?_of_no_room (Nat.not_le.1 hroom)] at h
    unfold claimWork
    rw [effect_bind, effect_lift]
    cases hmoment : decodeMillis now.toMillis with
    | error e' =>
        rw [hmoment] at h
        have he : (Except.error e' : Except StoreError (Option (List Target))) = .error e := h
        rw [Except.error.inj he]
    | ok moment =>
        rw [hmoment] at h
        obtain ⟨targets, history, versions⟩ := db
        cases targets with
        | none =>
            have he : (Except.error (.unavailable (.noTable .targets)) :
              Except StoreError (Option (List Target))) = .error e := h
            rw [← Except.error.inj he]
            rfl
        | some table => cases h

/-- What is made of the result does not matter. -/
theorem error_of_map {s : Session} {c : Contention} {work : Work α} {result : Except StoreError α}
    {e : StoreError} {f : α → β} (h : result.map f = .error e)
    (hwork : ∀ e, result = .error e → (effect work s.tables).1 = .error e ∨
      ∃ hindrance, e = .unavailable hindrance ∧ s.Hinders c hindrance) :
    (effect (f <$> work) s.tables).1 = .error e ∨
      ∃ hindrance, e = .unavailable hindrance ∧ s.Hinders c hindrance := by
  cases result with
  | ok v => cases h
  | error e' =>
      obtain rfl : e' = e := Except.error.inj h
      refine (hwork e' rfl).imp_left ?_
      intro heffect
      rw [effect_map, heffect]
      rfl

/-- **A call fails** for its statements, or because the session was hindered. -/
theorem error_of_answer {s : Session} {c : Contention} {call : SessionCall} {e : StoreError}
    (h : (answer (c, call) s).2 = some (.error e)) :
    (effect (statements call) s.tables).1 = .error e ∨
      ∃ hindrance, e = .unavailable hindrance ∧ s.Hinders c hindrance := by
  cases call with
  | store call =>
      cases call with
      | claim limit now =>
          obtain ⟨result, hclaim, hresult⟩ := Option.map_eq_some_iff.1 h
          refine error_of_map hresult fun e' he' => ?_
          subst he'
          unfold claim at hclaim
          by_cases hlimit : limit = 0
          · rw [if_pos hlimit] at hclaim
            cases hclaim
          · rw [if_neg hlimit] at hclaim ⊢
            exact (error_of_transact (error_of_transact? hclaim)).imp_left error_of_claimWork?
      | record rs =>
          refine error_of_map (Option.some.inj h) fun e' he' => ?_
          unfold record at he'
          split at he'
          · cases he'
          · exact error_of_transact he'
      | target id => exact .inl (Option.some.inj h)
      | range target owner first last => exact .inl (Option.some.inj h)
  | upsert ts => exact error_of_map (Option.some.inj h) fun e' he' => error_of_transact he'

end Database.Session

section Events

variable {path : String} {s s' : SharedFile} {reply : FileReply} {given : List OutcomeRecord}

/-- **One answer** of a session with tables that nobody tampered with: they are
still so, and a call fails only because the session was hindered. -/
theorem Database.IsUntampered.answer {db : Database} (h : db.IsUntampered given)
    (htables : db.HasTables) {handle : Handle} {session : Database.Session}
    (hsession : handle.session? db = some session) {call : SessionCall} (hcall : call.IsPlain)
    (c : Database.Contention) :
    (Database.Session.answer (c, call) session).1.durable.IsUntampered (given ++ call.records) ∧
      (Database.Session.answer (c, call) session).1.durable.HasTables ∧
      ∀ e, (Database.Session.answer (c, call) session).2 = some (.error e) →
        ∃ hindrance, e = .unavailable hindrance ∧ session.Hinders c hindrance := by
  obtain ⟨v, left, hwork, hleft, htables'⟩ := h.statements htables hcall
  have hsame : db.IsUntampered (given ++ call.records) := h.mono (List.subset_append_left _ _)
  have herror : ∀ session : Database.Session, session.tables = db → ∀ e,
      (Database.Session.answer (c, call) session).2 = some (.error e) →
        ∃ hindrance, e = .unavailable hindrance ∧ session.Hinders c hindrance := by
    intro session hsession e he
    refine (Database.Session.error_of_answer he).resolve_left ?_
    rw [hsession, hwork]
    intro hfailed
    cases hfailed
  cases handle with
  | closed => cases hsession
  | leftOpen =>
      obtain rfl := Option.some.inj hsession
      obtain ⟨result, hanswer⟩ := Database.Session.answer_of_checkpoint db db (c, call)
      refine and_assoc.1 ⟨?_, herror _ rfl⟩
      rw [hanswer]
      exact ⟨hsame, htables⟩
  | idle =>
      obtain rfl := Option.some.inj hsession
      refine and_assoc.1 ⟨?_, herror _ rfl⟩
      rcases Database.Session.answer_idle_cases c call db with
        htorn | ⟨e, he⟩ | ⟨v', left', hwork', hv⟩
      · rw [htorn]
        exact ⟨hsame, htables⟩
      · rw [he]
        exact ⟨hsame, htables⟩
      · rw [hwork, Prod.mk.injEq] at hwork'
        obtain ⟨-, rfl⟩ := hwork'
        rw [hv]
        exact ⟨hleft, htables'⟩

/-- A reply reports at most that the database could not be used, for what the event
was refused, or because its handle is inside a transaction. -/
def SharedFile.Explains (s : SharedFile) (e : FileEvent) (reply : FileReply) : Prop :=
  ∀ err, reply.error? = some err → ∃ hindrance, err = .unavailable hindrance ∧
    (hindrance ∈ e.hindrances ∨ hindrance = .withinTransaction ∧
      ∃ i c call, e = .calling i c call ∧ s.handles[i]? = some .leftOpen)

/-- What hinders the session of a handle explains its answer. -/
theorem SharedFile.explains_answered {db : Database} {i : Nat} {c : Database.Contention}
    {call : SessionCall} {handle : Handle} {session : Database.Session}
    (hhandle : s.handles[i]? = some handle) (hsession : handle.session? db = some session)
    {result : Except StoreError StoreAnswer}
    (h : ∀ e, result = .error e → ∃ hindrance, e = .unavailable hindrance ∧
      session.Hinders c hindrance) :
    s.Explains (.calling i c call) (.answered result) := by
  intro err herr
  cases result with
  | ok v => cases herr
  | error e =>
      obtain rfl : e = err := Option.some.inj herr
      obtain ⟨hindrance, rfl, hhinders⟩ := h e rfl
      refine ⟨hindrance, rfl, ?_⟩
      rcases hhinders with hbegin | hcommit | ⟨hwithin, rfl⟩
      · exact .inl (List.mem_append_left _ (Option.mem_toList.2 hbegin))
      · exact .inl (List.mem_append_right _ (Option.mem_toList.2 hcommit))
      · refine .inr ⟨rfl, i, c, call, rfl, ?_⟩
        cases handle with
        | leftOpen => exact hhandle
        | idle => cases hsession; cases hwithin
        | closed => cases hsession

/-- **A file that nobody tampered with:** there is none, or its tables are as the
operations leave them, and both are there once a session has opened it. -/
inductive SharedFile.IsUntampered (given : List OutcomeRecord) : SharedFile → Prop
  | absent : IsUntampered given .new
  | holding {db : Database} {handles : List Handle} (hdb : db.IsUntampered given)
      (htables : handles ≠ [] → db.HasTables) : IsUntampered given ⟨.holding db, handles⟩

/-- Opening a file brings what it holds up to date. -/
theorem DatabaseFile.openAt_of_contents {file : DatabaseFile} {db : Database}
    (h : file.contents? = some db) (path : String) : file.openAt path = .ok db.migrate := by
  cases file with
  | absent | holding => cases h; rfl
  | garbage | blocked => cases h

namespace SharedFile.IsUntampered

/-- An untampered file holds a database, and one with both tables once it was opened. -/
theorem contents (h : s.IsUntampered given) :
    ∃ db, s.file.contents? = some db ∧ db.IsUntampered given ∧ (s.handles ≠ [] → db.HasTables) := by
  cases h with
  | absent => exact ⟨.blank, rfl, Database.isUntampered_blank given, fun hne => absurd rfl hne⟩
  | holding hdb htables => exact ⟨_, rfl, hdb, htables⟩

/-- More records may have been given. -/
theorem mono (h : s.IsUntampered given) (more : List OutcomeRecord) :
    s.IsUntampered (given ++ more) := by
  cases h with
  | absent => exact .absent
  | holding hdb htables => exact .holding (hdb.mono (List.subset_append_left _ _)) htables

/-- What becomes of a handle leaves the file as it is. -/
theorem set (h : s.IsUntampered given) (i : Nat) (handle : Handle) :
    IsUntampered given ⟨s.file, s.handles.set i handle⟩ := by
  cases h with
  | absent => exact .absent
  | holding hdb htables =>
      refine .holding hdb fun hne => htables ?_
      rintro rfl
      exact hne rfl

/-- **One event** leaves nothing that cannot be read, and reports nothing but what
hindered it. -/
theorem react (h : s.IsUntampered given) {e : FileEvent} (he : e.IsPlain)
    (hreact : s.react path e = some (s', reply)) :
    s'.IsUntampered (given ++ e.records) ∧ s.Explains e reply := by
  obtain ⟨before, hcontents, hbefore, htables⟩ := h.contents
  cases moves_of_react hreact with
  | @opened db hopen =>
      rw [DatabaseFile.openAt_of_contents hcontents] at hopen
      obtain rfl := Except.ok.inj hopen
      obtain ⟨hmigrated, htables'⟩ := hbefore.migrate
      rw [FileEvent.records, List.append_nil]
      exact ⟨.holding hmigrated fun _ => htables', fun err herr => by cases herr⟩
  | notOpened hopen =>
      rw [DatabaseFile.openAt_of_contents hcontents] at hopen
      cases hopen
  | brokenOff hfile count hindrance =>
      obtain rfl := Option.some.inj (hcontents.symm.trans hfile)
      rw [FileEvent.records, List.append_nil]
      refine ⟨.holding (hbefore.begun count) fun hne => (htables hne).begun count, ?_⟩
      intro err herr
      exact ⟨hindrance, (Option.some.inj herr).symm, .inl (List.mem_singleton_self _)⟩
  | closed => exact ⟨(h.mono _).set _ _, fun err herr => by cases herr⟩
  | tornDown => exact ⟨(h.mono _).set _ _, fun err herr => by cases herr⟩
  | @answered db hfile i handle hhandle session hsession c call result hresult =>
      rw [hfile] at hcontents
      obtain rfl : db = before := Option.some.inj hcontents
      have hopened : s.handles ≠ [] := List.ne_nil_of_mem (List.mem_of_getElem? hhandle)
      obtain ⟨hleft, htables', herror⟩ := hbefore.answer (htables hopened) hsession he c
      refine ⟨.holding hleft fun _ => htables', explains_answered hhandle hsession ?_⟩
      intro e herr
      exact herror e (hresult.trans (congrArg some herr))

/-- **Something comes of every event** whose handle is there. -/
theorem exists_react (h : s.IsUntampered given) {e : FileEvent} (he : e.CanBefall s.handles)
    (path : String) : ∃ next, s.react path e = some next := by
  obtain ⟨db, hcontents, -, -⟩ := h.contents
  cases e with
  | opening hindered =>
      cases hindered with
      | none => exact ⟨_, by rw [SharedFile.react, DatabaseFile.openAt_of_contents hcontents]⟩
      | some hindered => exact ⟨_, by rw [SharedFile.react, hcontents]; rfl⟩
  | closing i => exact ⟨_, if_pos he⟩
  | calling i c call =>
      obtain ⟨handle, hhandle, hopen⟩ := he
      cases h with
      | absent => cases hhandle
      | holding =>
          simp only [SharedFile.react, hhandle]
          cases handle with
          | idle | leftOpen => exact ⟨_, rfl⟩
          | closed => exact absurd rfl hopen

end SharedFile.IsUntampered

/-- A handle is left inside a transaction by a call that tears its caller down. -/
theorem SharedFile.Moves.leftOpen {e : FileEvent} (h : s.Moves path e s' reply) {i : Nat}
    (hleft : s'.handles[i]? = some .leftOpen) :
    s.handles[i]? = some .leftOpen ∨ reply = .tornDown ∧ ∃ c call, e = .calling i c call := by
  cases h with
  | opened =>
      rw [List.getElem?_append] at hleft
      split at hleft
      · exact .inl hleft
      · rw [List.getElem?_singleton] at hleft
        split at hleft <;> cases hleft
  | closed =>
      rw [List.getElem?_set] at hleft
      split at hleft
      · cases hleft
      · exact .inl hleft
  | @tornDown _ _ j hhandle c call =>
      rw [List.getElem?_set] at hleft
      split at hleft
      · next hij =>
          subst hij
          exact .inr ⟨rfl, c, call, rfl⟩
      · exact .inl hleft
  | notOpened | brokenOff | answered => exact .inl hleft

/-- What a log tells of the handles, and of the errors that were reported. -/
structure SharedFile.ToldBy (log : List (FileEvent × FileReply)) (s : SharedFile) : Prop where
  leftOpen : ∀ i, s.handles[i]? = some .leftOpen →
    ∃ c call, (.calling i c call, .tornDown) ∈ log
  explained : ∀ e reply, (e, reply) ∈ log → ∀ err, reply.error? = some err →
    ∃ hindrance, err = .unavailable hindrance ∧
      (hindrance ∈ e.hindrances ∨ hindrance = .withinTransaction ∧
        ∃ i c call c' call', e = .calling i c call ∧ (.calling i c' call', .tornDown) ∈ log)

/-- One more event, and what came of it. -/
theorem SharedFile.ToldBy.react {log : List (FileEvent × FileReply)} (h : s.ToldBy log)
    {e : FileEvent} (hreact : s.react path e = some (s', reply)) (hexplains : s.Explains e reply) :
    s'.ToldBy (log ++ [(e, reply)]) where
  leftOpen i hleft := by
    rcases (moves_of_react hreact).leftOpen hleft with hbefore | ⟨rfl, c, call, rfl⟩
    · obtain ⟨c, call, hmem⟩ := h.leftOpen i hbefore
      exact ⟨c, call, List.mem_append_left _ hmem⟩
    · exact ⟨c, call, by simp⟩
  explained e' reply' hmem err herr := by
    rcases List.mem_append.1 hmem with hmem | hmem
    · obtain ⟨hindrance, rfl, htold⟩ := h.explained e' reply' hmem err herr
      refine ⟨hindrance, rfl, htold.imp_right ?_⟩
      rintro ⟨hwithin, i, c, call, c', call', he, htorn⟩
      exact ⟨hwithin, i, c, call, c', call', he, List.mem_append_left _ htorn⟩
    · obtain ⟨rfl, rfl⟩ := Prod.mk.injEq .. ▸ List.mem_singleton.1 hmem
      obtain ⟨hindrance, rfl, htold⟩ := hexplains err herr
      refine ⟨hindrance, rfl, htold.imp_right ?_⟩
      rintro ⟨hwithin, i, c, call, he, hleft⟩
      obtain ⟨c', call', htorn⟩ := h.leftOpen i hleft
      exact ⟨hwithin, i, c, call, c', call', he, List.mem_append_left _ htorn⟩

/-- **Any number of events** leave nothing that cannot be read, and the log tells why
errors were reported. -/
theorem SharedFile.IsUntampered.of_run {es : List FileEvent} (hplain : ∀ e ∈ es, e.IsPlain)
    {now : SharedFile × List (FileEvent × FileReply)}
    (h : Run (SharedFile.step path) (.new, []) es now) :
    now.1.IsUntampered (es.flatMap FileEvent.records) ∧ now.1.ToldBy now.2 := by
  induction h with
  | nil =>
      refine ⟨.absent, ?_, ?_⟩
      · intro i hleft
        cases hleft
      · intro e reply hmem
        cases hmem
  | @snoc es now next e _ hstep ih =>
      obtain ⟨huntampered, htold⟩ := ih fun e he => hplain e (List.mem_append_left _ he)
      obtain ⟨⟨s', reply⟩, hreact, rfl⟩ := Option.map_eq_some_iff.1 hstep
      obtain ⟨hleft, hexplains⟩ := huntampered.react (hplain e (by simp)) hreact
      rw [List.flatMap_append, List.flatMap_singleton]
      exact ⟨hleft, htold.react hreact hexplains⟩

/-- **An untampered database is never reported corrupt.**  Take any sequence of
events that befall a file from its creation on: sessions open and close it, and
put in targets, claim, record outcomes and look at targets and histories, each
hindered by the others in any way, at instants that are in no leap second.  No
event is answered by a report of corruption: whatever fails, fails for what it was
refused, or at a handle that a claim has left inside a transaction.  And something
comes of whatever is asked next of a handle that is open.

Whatever the file holds then can be read: of every target the identity has 32
bytes, the mode is known, the moments are moments of the calendar and the latency
fits 32 bits; every row of a day has 2880 bytes and is under the key of a record
that was given, whose day is read from the text of the key.  No two days have one
text. -/
theorem SharedFile.untampered_is_never_corrupt {path : String} {es : List FileEvent}
    (hplain : ∀ e ∈ es, e.IsPlain) {s : SharedFile} {log : List (FileEvent × FileReply)}
    (h : Run (SharedFile.step path) (.new, []) es (s, log)) :
    (∀ e reply, (e, reply) ∈ log → ∀ corruption, reply.error? ≠ some (.corrupt corruption)) ∧
    (∀ e reply, (e, reply) ∈ log → ∀ err, reply.error? = some err →
      ∃ hindrance, err = .unavailable hindrance ∧
        (hindrance ∈ e.hindrances ∨ hindrance = .withinTransaction ∧
          ∃ i c call c' call', e = .calling i c call ∧
            (.calling i c' call', .tornDown) ∈ log)) ∧
    (∀ e : FileEvent, e.CanBefall s.handles → ∃ next, s.react path e = some next) ∧
    (∀ db, s.file = .holding db →
      (∀ table, db.targets = some table →
        ∀ id row, table.rows.find? id = some row → row.id = id ∧ row.MakesSense) ∧
      (∀ table, db.history = some table →
        ∀ key blob, table.rows.find? key = some blob → blob.length = 2880 ∧
          ∃ r ∈ es.flatMap FileEvent.records, key = HistoryRowKey.ofKey r.slot.key ∧
            Day.parse key.day = .ok r.slot.key.day)) ∧
    ∀ a b : Day, a.text = b.text → a = b := by
  obtain ⟨huntampered, htold⟩ := SharedFile.IsUntampered.of_run hplain h
  refine ⟨?_, htold.explained, fun e he => huntampered.exists_react he path, ?_,
    fun a b => Day.text_injective⟩
  · intro e reply hmem corruption hcorrupt
    obtain ⟨hindrance, heq, -⟩ := htold.explained e reply hmem _ hcorrupt
    cases heq
  · intro db hdb
    cases huntampered with
    | absent => cases hdb
    | holding huntampered _ =>
        obtain rfl := DatabaseFile.holding.inj hdb
        constructor
        · intro table htable id row hrow
          have hlegible := (huntampered.targets table htable).legible
          exact ⟨hlegible.keyed id row hrow,
            TargetRow.makesSense_of_decode (hlegible.decode id row hrow)⟩
        · intro table htable key blob hblob
          exact (huntampered.history table htable).row hblob

/-- Two sessions, one of which a claim leaves inside its transaction, write days of
the years -221 and 12921 and look at them again. -/
theorem SharedFile.untampered_is_never_corrupt_two_sessions :
    ∃ (es : List FileEvent) (s : SharedFile) (log : List (FileEvent × FileReply)),
      Run (SharedFile.step "peers.db") (.new, []) es (s, log) ∧
      log.map (·.2.error?) =
        [some (.unavailable (.described "database is locked")), none, none, none, none, none,
          some (.unavailable (.described "database is locked")),
          some (.unavailable .withinTransaction), none, none, none, none] ∧
      (s.file.contents?.bind (·.history)).map (fun table => table.rows.entries.map (·.1.day)) =
        some ["-0221-09-04", "+12921-08-18"] ∧
      ∀ e reply, (e, reply) ∈ log →
        ∀ corruption, reply.error? ≠ some (.corrupt corruption) := by
  let other : TargetId := ⟨List.replicate 32 1, rfl⟩
  let early : Day := ⟨-800000, by decide⟩
  let late : Day := ⟨4000000, by decide⟩
  let rs : List OutcomeRecord :=
    [⟨⟨default, default, 4294967295, none⟩, ⟨⟨default, .nil, early⟩, 1440, 65535⟩⟩,
      ⟨⟨other, default, 7, none⟩, ⟨⟨other, .nil, late⟩, 5, 1⟩⟩]
  let locked : Hindrance := .described "database is locked"
  let es : List FileEvent :=
    [.opening (some (1, locked)), .opening none, .opening none,
      .calling 0 .free (.upsert [.fresh default "peer:1" .ping]),
      .calling 1 .free (.store (.record rs)),
      .calling 0 .free (.store (.claim (Database.claimBound + 1) default)),
      .calling 1 ⟨some locked, none⟩ (.store (.claim 1 default)),
      .calling 0 .free (.store (.record rs)), .closing 0,
      .calling 1 .free (.store (.claim 1 default)), .calling 1 .free (.store (.target default)),
      .calling 1 .free (.store (.range other .nil late late))]
  have hdefault : (default : Instant).isLeapSecond = false := by decide
  have hplain : ∀ e ∈ es, e.IsPlain := by
    simp [es, rs, FileEvent.IsPlain, SessionCall.IsPlain, hdefault]
  have hrun : (es.foldlM (SharedFile.step "peers.db") (.new, [])).any fun now =>
      now.2.map (·.2.error?) =
        [some (.unavailable locked), none, none, none, none, none, some (.unavailable locked),
          some (.unavailable .withinTransaction), none, none, none, none] ∧
      (now.1.file.contents?.bind (·.history)).map (fun table => table.rows.entries.map (·.1.day)) =
        some ["-0221-09-04", "+12921-08-18"] := by
    decide +kernel
  obtain ⟨⟨s, log⟩, h, hleft⟩ := Run.exists_of_any hrun
  obtain ⟨hreplies, hdays⟩ := of_decide_eq_true hleft
  exact ⟨es, s, log, h, hreplies, hdays, (untampered_is_never_corrupt hplain h).1⟩

end Events

end PeerWatch
