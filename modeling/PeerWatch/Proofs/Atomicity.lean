import PeerWatch.Proofs.Calls
import PeerWatch.Proofs.Ledgers
import PeerWatch.Proofs.Transactions

/-!
# Failed calls

A call that fails leaves nothing behind, in whatever state the tables are and
at whichever statement it fails: a session goes back to where it was, and a
ledger only forgets the fault that was set for it.  So a sequence of calls is
answered as if those that fail had never been made.

A claim for whose answer there can be no room does not fail but tears its caller
down.  It leaves the tables, but the session is inside its transaction from then
on, and every call that would change something fails there.

* `Database.statements` — what a call does to the tables, statement by
  statement;
* `Database.Session.answer_allOrNothing`, `answer_tornDown`, `answer_idle_cases` — one call;
* `Database.Session.answer_of_error` — a call that failed, wherever it was made;
* `serve_unfailing` — a sequence of calls.
-/

namespace PeerWatch

namespace Database

/-- The statements of a call, outside any transaction. -/
def statements : SessionCall → Work StoreAnswer
  | .store (.claim limit now) =>
    .claimed <$> (if limit = 0 then pure [] else claimWork limit now)
  | .store (.record rs) => .recorded <$> batchWork 0 rs .zero
  | .store (.target id) => do
    let db ← get
    ExceptT.mk (pure ((db.target? id).map .found))
  | .store (.range target owner first last) => do
    let db ← get
    ExceptT.mk (pure ((db.range target owner first last).map .shown))
  | .upsert ts => .upserted <$> (do upsertWork ts; pure ts.length)

namespace Session

section AllOrNothing

variable {α β : Type} {db : Database} {work : Work α} {outcome : Session × Except StoreError α}

/-- What is made of the result does not matter. -/
theorem AllOrNothing.map (h : AllOrNothing db work outcome) (f : α → β) :
    AllOrNothing db (f <$> work) (outcome.1, outcome.2.map f) := by
  obtain ⟨s, result⟩ := outcome
  constructor
  · intro e he
    cases result with
    | error e' => exact h.failed e' rfl
    | ok v => cases he
  · intro v hv
    cases result with
    | error e => cases hv
    | ok v' =>
        obtain ⟨left, hleft, hs⟩ := h.done v' rfl
        refine ⟨left, ?_, hs⟩
        rw [effect_map, hleft, ← Except.ok.inj hv]
        rfl

/-- Work that changes nothing needs no transaction. -/
theorem allOrNothing_of_effect {result : Except StoreError α} (h : effect work db = (result, db)) :
    AllOrNothing db work (idle db, result) :=
  ⟨fun _ _ => rfl, fun _ hv => ⟨db, h.trans (congrArg (·, db) hv), rfl⟩⟩

/-- A claim that is answered is all or nothing, also one for too many targets: that fails. -/
theorem claim_allOrNothing {c : Contention} {limit : Nat} {now : Calendar.Instant}
    {result : Except StoreError (List Target)}
    (h : ((idle db).claim c limit now).2 = some result) :
    AllOrNothing db (if limit = 0 then pure [] else claimWork limit now)
      (((idle db).claim c limit now).1, result) := by
  by_cases hroom : limit ≤ claimBound
  · rw [claim_of_room hroom] at h ⊢
    split at h
    · next hlimit =>
        subst hlimit
        obtain rfl := Option.some.inj h
        exact allOrNothing_of_effect rfl
    · next hlimit =>
        obtain rfl := Option.some.inj h
        rw [if_neg hlimit, if_neg hlimit]
        exact transact_allOrNothing db c _
  · rw [claim_of_no_room (Nat.not_le.1 hroom)] at h ⊢
    have hfailed : ∀ e, AllOrNothing db (if limit = 0 then pure [] else claimWork limit now)
        (idle db, .error e) := fun e => ⟨fun _ _ => rfl, fun _ hv => by cases hv⟩
    split at h
    · obtain rfl := Option.some.inj h
      exact hfailed _
    · obtain rfl := Option.some.inj h
      exact hfailed _
    · obtain rfl := Option.some.inj h
      exact hfailed _
    · cases h

/-- **One call** that is answered is all or nothing. -/
theorem answer_allOrNothing {c : Contention} {call : SessionCall}
    {result : Except StoreError StoreAnswer} (h : (answer (c, call) (idle db)).2 = some result) :
    AllOrNothing db (statements call) ((answer (c, call) (idle db)).1, result) := by
  cases call with
  | store call =>
      cases call with
      | claim limit now =>
          obtain ⟨claimed, hclaim, rfl⟩ := Option.map_eq_some_iff.1 h
          exact (claim_allOrNothing hclaim).map _
      | record rs =>
          obtain rfl := Option.some.inj h
          have hrecord : AllOrNothing db (batchWork 0 rs .zero) ((idle db).record c rs) := by
            unfold record
            split
            · next hempty =>
                obtain rfl := List.isEmpty_iff.1 hempty
                exact allOrNothing_of_effect rfl
            · exact transact_allOrNothing db c _
          exact hrecord.map _
      | target id =>
          obtain rfl := Option.some.inj h
          exact allOrNothing_of_effect rfl
      | range target owner first last =>
          obtain rfl := Option.some.inj h
          exact allOrNothing_of_effect rfl
  | upsert ts =>
      obtain rfl := Option.some.inj h
      exact (transact_allOrNothing db c _).map _

/-- **One call** that tears its caller down is a claim for more targets than there can be
room for, and wrote nothing. -/
theorem answer_tornDown {c : Contention} {call : SessionCall}
    (h : (answer (c, call) (idle db)).2 = none) :
    (∃ limit now, call = .store (.claim limit now) ∧ claimBound < limit) ∧
      (answer (c, call) (idle db)).1 = ⟨db, some db⟩ := by
  cases call with
  | store call =>
      cases call with
      | claim limit now =>
          have hclaim : ((idle db).claim c limit now).2 = none := Option.map_eq_none_iff.1 h
          show _ ∧ ((idle db).claim c limit now).1 = _
          by_cases hroom : limit ≤ claimBound
          · rw [claim_of_room hroom] at hclaim
            split at hclaim <;> cases hclaim
          · refine ⟨⟨limit, now, rfl, Nat.not_le.1 hroom⟩, ?_⟩
            rw [claim_of_no_room (Nat.not_le.1 hroom)] at hclaim ⊢
            split at hclaim
            · cases hclaim
            · cases hclaim
            · cases hclaim
            · rfl
      | record rs => cases h
      | target id => cases h
      | range target owner first last => cases h
  | upsert ts => cases h

/-- **One call,** in the three ways it can go: the caller is torn down inside the transaction,
the call fails and leaves nothing, or all of its statements are kept. -/
theorem answer_idle_cases (c : Contention) (call : SessionCall) (db : Database) :
    answer (c, call) (idle db) = (⟨db, some db⟩, none) ∨
      (∃ e, answer (c, call) (idle db) = (idle db, some (.error e))) ∨
      ∃ v left, effect (statements call) db = (.ok v, left) ∧
        answer (c, call) (idle db) = (idle left, some (.ok v)) := by
  cases hanswer : answer (c, call) (idle db) with
  | mk s result =>
      have hresult := congrArg Prod.snd hanswer
      cases result with
      | none =>
          obtain ⟨-, hs⟩ := answer_tornDown hresult
          rw [hanswer] at hs
          exact .inl (congrArg (·, none) hs)
      | some result =>
          obtain ⟨hfailed, hdone⟩ := answer_allOrNothing hresult
          rw [hanswer] at hfailed hdone
          cases result with
          | error e =>
              have hs : s = idle db := hfailed e rfl
              exact .inr (.inl ⟨e, by rw [hs]⟩)
          | ok v =>
              obtain ⟨left, hleft, hs⟩ := hdone v rfl
              have hs : s = idle left := hs
              exact .inr (.inr ⟨v, left, hleft, by rw [hs]⟩)

end AllOrNothing

section Sequences

/-- A session inside a transaction that a call did not begin answers it, and stays as it is. -/
theorem answer_of_checkpoint (tables checkpoint : Database) (call : Contention × SessionCall) :
    ∃ result, answer call ⟨tables, some checkpoint⟩ = (⟨tables, some checkpoint⟩, some result) := by
  have hwithin : (Session.mk tables (some checkpoint)).checkpoint = some checkpoint := rfl
  obtain ⟨c, call⟩ := call
  cases call with
  | store call =>
      cases call with
      | claim limit now =>
          show ∃ result, ((claim _ c limit now).1, (claim _ c limit now).2.map _) = _
          rw [claim_of_checkpoint hwithin]
          exact ⟨_, rfl⟩
      | record rs =>
          show ∃ result, ((record _ c rs).1, some ((record _ c rs).2.map _)) = _
          unfold record
          split
          · exact ⟨_, rfl⟩
          · rw [transact_of_checkpoint hwithin]
            exact ⟨_, rfl⟩
      | target id => exact ⟨_, rfl⟩
      | range target owner first last => exact ⟨_, rfl⟩
  | upsert ts =>
      show ∃ result, ((upsert _ c ts).1, some ((upsert _ c ts).2.map _)) = _
      unfold upsert
      rw [transact_of_checkpoint hwithin]
      exact ⟨_, rfl⟩

/-- A session that answers a call with an error is what it was. -/
theorem answer_of_error {s : Session} {call : Contention × SessionCall} {e : StoreError}
    (h : (answer call s).2 = some (.error e)) : (answer call s).1 = s := by
  obtain ⟨c, call⟩ := call
  obtain ⟨tables, checkpoint⟩ := s
  cases checkpoint with
  | none => exact (answer_allOrNothing h).failed e rfl
  | some checkpoint =>
      obtain ⟨result, hsame⟩ := answer_of_checkpoint tables checkpoint (c, call)
      rw [hsame]

/-- A session that was outside any transaction, and answered all of some calls, is so again. -/
theorem serve_eq_idle {db : Database} {calls : List (Contention × SessionCall)}
    (h : none ∉ (serve answer calls (idle db)).2) :
    ∃ left, (serve answer calls (idle db)).1 = idle left := by
  induction calls generalizing db with
  | nil => exact ⟨db, rfl⟩
  | cons call rest ih =>
      rw [serve, List.mem_cons, not_or] at h
      obtain ⟨hanswered, hrest⟩ := h
      have hidle : ∃ between, (answer call (idle db)).1 = idle between := by
        rcases answer_idle_cases call.1 call.2 db with htorn | ⟨e, he⟩ | ⟨v, left, -, hv⟩
        · exact absurd (congrArg Prod.snd htorn).symm hanswered
        · exact ⟨db, congrArg Prod.fst he⟩
        · exact ⟨left, congrArg Prod.fst hv⟩
      obtain ⟨between, hbetween⟩ := hidle
      rw [hbetween] at hrest
      obtain ⟨left, hleft⟩ := ih hrest
      refine ⟨left, ?_⟩
      rw [serve, hbetween, hleft]

end Sequences

end Session

end Database

/-- **Calls that fail are as good as never made,** in a sequence of any length,
where a call that fails leaves what it found. -/
theorem serve_unfailing {κ σ α : Type} {answer : κ → σ → σ × Option (Except StoreError α)}
    (hfailed : ∀ call s e, (answer call s).2 = some (.error e) → (answer call s).1 = s)
    (calls : List κ) (s : σ) :
    serve answer (unfailing answer calls s) s =
      ((serve answer calls s).1, (serve answer calls s).2.filter (!isError ·)) := by
  induction calls generalizing s with
  | nil => rfl
  | cons call rest ih =>
      have hunfold : serve answer (call :: rest) s =
          ((serve answer rest (answer call s).1).1,
            (answer call s).2 :: (serve answer rest (answer call s).1).2) := rfl
      have hrest := ih (answer call s).1
      cases hcall : isError (answer call s).2 with
      | true =>
          -- the call drops out, and the rest begins where it began
          have hsame : (answer call s).1 = s := by
            unfold isError at hcall
            split at hcall
            · next e herror => exact hfailed call s e herror
            · cases hcall
          have hkept : unfailing answer (call :: rest) s = unfailing answer rest s := by
            unfold unfailing
            rw [hunfold, hsame, List.zip_cons_cons, List.filter_cons_of_neg (by simp [hcall])]
          rw [hsame] at hrest
          rw [hkept, hrest, hunfold, hsame, List.filter_cons_of_neg (by simp [hcall])]
      | false =>
          have hkept : unfailing answer (call :: rest) s =
              call :: unfailing answer rest (answer call s).1 := by
            unfold unfailing
            rw [hunfold, List.zip_cons_cons, List.filter_cons_of_pos (by simp [hcall])]
            rfl
          rw [hkept, serve, hrest, hunfold, List.filter_cons_of_pos (by simp [hcall])]

namespace Ledger

/-- The tables of a ledger that did all of a call. -/
def wholly (l : Ledger) : StoreCall → Sheets TargetId Target HistoryKey DayHistory
  | .claim limit now =>
    (l.putAll ((l.queue.take limit).map fun t => { t with lastClaimedAt := some now })).sheets
  | .record rs => (ledgerHand.enterAll rs l.sheets).1
  | .target _ => l.sheets
  | .range .. => l.sheets

/-- A ledger did all of a call that it answers, and nothing of one that it does
not. -/
theorem sheets_answer (l : Ledger) (call : StoreCall) :
    (answer call l).1.sheets = if (answer call l).2.isOk then l.wholly call else l.sheets := by
  cases call with
  | claim limit now =>
      simp only [answer, claim]
      split <;> rfl
  | record rs =>
      cases hrecord : l.record rs with
      | mk l' result =>
          simp only [answer, hrecord]
          cases result with
          | error e =>
              rw [record_of_error hrecord]
              rfl
          | ok report =>
              rw [(record_of_ok hrecord).1]
              rfl
  | target id => rfl
  | range target owner first last => rfl

end Ledger

namespace Database

/-- **A failed call leaves nothing behind.**  Whatever the tables hold, whatever is asked
and whoever else has the file, a call that fails leaves a session as it was and outside
any transaction, and one that succeeds did all of its statements, which are kept.  Only a
claim for more targets than there can be room for may do neither: then it wrote nothing,
and the session is inside its transaction.  As long as no caller was torn down, a session
stays outside any transaction.  A sequence of calls is answered as if those that fail had
not been made, whatever the state of the session.  A ledger, whatever faults were set for
it, has the tables it had or those of the whole call. -/
theorem failed_calls_leave_nothing :
    (∀ (db : Database) (c : Contention) (call : SessionCall) (s : Session)
      (answer : Except StoreError StoreAnswer),
      Session.answer (c, call) (Session.idle db) = (s, some answer) →
      s.checkpoint = none ∧ (∀ e, answer = .error e → s.tables = db) ∧
        ∀ v, answer = .ok v → effect (statements call) db = (.ok v, s.durable)) ∧
    (∀ (db : Database) (c : Contention) (call : SessionCall) (s : Session),
      Session.answer (c, call) (Session.idle db) = (s, none) →
      (∃ limit now, call = .store (.claim limit now) ∧ 96076792050570581 < limit) ∧
        s.tables = db ∧ s.durable = db) ∧
    (∀ (db : Database) (calls : List (Contention × SessionCall)),
      none ∉ (serve Session.answer calls (Session.idle db)).2 →
      ∃ left, (serve Session.answer calls (Session.idle db)).1 = Session.idle left) ∧
    (∀ (s : Session) (calls : List (Contention × SessionCall)),
      serve Session.answer (unfailing Session.answer calls s) s =
        ((serve Session.answer calls s).1, (serve Session.answer calls s).2.filter (!isError ·))) ∧
    (∀ (l l' : Ledger) (call : StoreCall) (answer : Except StoreError StoreAnswer),
      l.answer call = (l', answer) →
      (∀ e, answer = .error e → l'.targets = l.targets ∧ l'.history = l.history) ∧
        ∀ v, answer = .ok v → l'.sheets = l.wholly call) := by
  refine ⟨?answered, ?tornDown, fun _ _ => Session.serve_eq_idle,
    fun s calls => serve_unfailing (fun _ _ _ => Session.answer_of_error) calls s, ?ledger⟩
  case answered =>
    intro db c call s answer h
    obtain ⟨hfailed, hdone⟩ := Session.answer_allOrNothing (congrArg Prod.snd h)
    rw [h] at hfailed hdone
    cases answer with
    | error e =>
        have hs : s = Session.idle db := hfailed e rfl
        subst hs
        refine ⟨rfl, fun _ _ => rfl, ?_⟩
        intro v hv
        cases hv
    | ok v =>
        obtain ⟨left, hleft, hs⟩ := hdone v rfl
        have hs : s = Session.idle left := hs
        subst hs
        refine ⟨rfl, ?_, ?_⟩
        · intro e he
          cases he
        · intro v' hv
          rw [← hv]
          exact hleft
  case tornDown =>
    intro db c call s h
    obtain ⟨hclaim, hs⟩ := Session.answer_tornDown (congrArg Prod.snd h)
    rw [h] at hs
    have hs : s = ⟨db, some db⟩ := hs
    subst hs
    exact ⟨hclaim, rfl, rfl⟩
  case ledger =>
    intro l l' call answer h
    have hsheets := l.sheets_answer call
    rw [h] at hsheets
    constructor
    · intro e heq
      subst heq
      have hsame : l'.sheets = l.sheets := hsheets
      exact ⟨congrArg Sheets.targets hsame, congrArg Sheets.history hsame⟩
    · intro v heq
      subst heq
      exact hsheets

/-- The first record of a batch is entered, and the target of the second refuses
its outcome: neither is left. -/
theorem refused_batch_leaves_nothing :
    ∃ (db : Database) (rs : List OutcomeRecord) (s : Session),
      rs.length = 2 ∧
      Session.answer (.free, .store (.record rs)) (Session.idle db) =
        (s, some (.error (.rowFailed 1 default .rejected))) ∧
      s.checkpoint = none ∧ s.tables = db := by
  let row : TargetRow := .ofTarget (.fresh default "peer:1" .ping)
  let db : Database := ⟨some ⟨(∅ : Table _ _).insert row.id row, [(.outcome, row.id)]⟩,
    some ⟨∅, []⟩, [schemaVersion]⟩
  let other : TargetId := ⟨List.replicate 32 1, rfl⟩
  let rs : List OutcomeRecord := [.ofOutcome .nil ⟨other, default, 7, none⟩,
    .ofOutcome .nil ⟨default, default, 7, none⟩]
  have hfailed : Session.answer (.free, .store (.record rs)) (Session.idle db) =
      ((Session.answer (.free, .store (.record rs)) (Session.idle db)).1,
        some (.error (.rowFailed 1 default .rejected))) := Prod.ext rfl rfl
  obtain ⟨hidle, hsame, _⟩ := failed_calls_leave_nothing.1 _ _ _ _ _ hfailed
  exact ⟨db, rs, _, rfl, hfailed, hidle, hsame _ rfl⟩

/-- **A call may fail inside a transaction,** and stay there: a claim for which there is no
room tears its caller down, and the batch that comes after it is refused. -/
theorem failed_batch_inside_transaction :
    ∃ (limit : Nat) (rs : List OutcomeRecord) (s : Session),
      serve Session.answer [(.free, .store (.claim limit default)), (.free, .store (.record rs))]
          (Session.idle blank.migrate) =
        (s, [none, some (.error (.unavailable .withinTransaction))]) ∧
      s.checkpoint.isSome := by
  let rs : List OutcomeRecord := [.ofOutcome .nil ⟨default, default, 7, none⟩]
  refine ⟨claimBound + 1, rs, ⟨blank.migrate, some blank.migrate⟩, ?_, rfl⟩
  have htorn : Session.answer (.free, .store (.claim (claimBound + 1) default))
      (Session.idle blank.migrate) = (⟨blank.migrate, some blank.migrate⟩, none) := by
    show ((Session.claim _ _ _ _).1, (Session.claim _ _ _ _).2.map _) = _
    rw [Session.claim_of_no_room (Nat.lt_succ_self claimBound)]
    rfl
  rw [serve, htorn]
  rfl

end Database

end PeerWatch
