import PeerWatch.Rehearsal.World

/-!
# The course of an attempt

What one attempt at a target does, and what becomes of it, is settled by the mode of the
target and by how the peer is opened and pinged within the limit, which both have to share.
How it is closed shows in one place: the time of an attempt that fails after its connection
was opened counts closing.  The time of a success does not.

* `Call.Ends`, `Call.IsLate` — a call that is over within a limit, and one that is not;
* `Call.graced`, `timeTold` — how long closing takes, and the time that an outcome tells;
* `Course` — the seven courses an attempt can take, each with its failure, with the calls
  that are begun and with the time that opening and pinging take;
* `exists_course`, `attempt_of_course` — an attempt takes a course, and what is then known
  of it;
* `Rehearsal.World.attempts_take_their_course`.
-/

namespace PeerWatch

/-- A call begun at a moment is over at another, not after the limit. -/
def Call.Ends (call : Call) (begun limit ended : Nat) (ending : CallEnd) : Prop :=
  ∃ span, call = ⟨some span, ending⟩ ∧ ended = begun + span ∧ ended ≤ limit

/-- A call begun at a moment goes on after the limit. -/
def Call.IsLate (call : Call) (begun limit : Nat) : Prop :=
  ∀ span, call.span = some span → limit < begun + span

/-- How long it takes to close a connection: as long as the peer takes, within the grace. -/
def Call.graced (call : Call) : Nat :=
  match call.span with
  | none => closeGrace
  | some span => min span closeGrace

/-- The time that the outcome of an attempt tells, out of its failure, the calls that were
begun, the time until a connection is to be closed, and how long it takes to close it. -/
def timeTold (failure : Option Failure) (calls : CallCounts) (spent closing : Nat) : Nat :=
  if failure.isSome ∧ calls.closes = 1 then spent + closing else spent

/-- No call of the peer tears its caller down. -/
structure Peer.IsCalm (peer : Peer) : Prop where
  dial : peer.dial.ending ≠ .aborts
  ping : peer.ping.ending ≠ .aborts
  close : peer.close.ending ≠ .aborts

/-- A connection is opened within the limit. -/
def Peer.Opens (peer : Peer) (limit : Nat) : Prop := ∃ ended, peer.dial.Ends 0 limit ended .returns

/-- The courses that an attempt can take under a limit with a peer that is opened and pinged
in some way: the failure, if it fails; the calls that are begun; and how long it takes until
the connection, if there is one, is to be closed. -/
inductive Course (limit : Nat) (dial ping : Call) :
    ProbeMode → Option Failure → CallCounts → Nat → Prop
  | disabled :
    Course limit dial ping .off (some ⟨.fatal, "probing disabled for target"⟩) ⟨0, 0, 0⟩ 0
  | dialLate {mode : ProbeMode} (hmode : mode ≠ .off) (hlate : dial.IsLate 0 limit) :
    Course limit dial ping mode
      (some ⟨.transientNetwork, "dial deadline exceeded after " ++ toString limit ++ "ms"⟩)
      ⟨1, 0, 0⟩ limit
  | dialFailed {mode : ProbeMode} {ended : Nat} {e : ConnectionError} (hmode : mode ≠ .off)
      (hdial : dial.Ends 0 limit ended (.fails e)) :
    Course limit dial ping mode (some ⟨e.classify, "dial failed: " ++ e.message⟩) ⟨1, 0, 0⟩ ended
  | dialed {ended : Nat} (hdial : dial.Ends 0 limit ended .returns) :
    Course limit dial ping .dial none ⟨1, 0, 1⟩ ended
  | pingLate {opened : Nat} (hdial : dial.Ends 0 limit opened .returns)
      (hlate : ping.IsLate opened limit) :
    Course limit dial ping .ping
      (some ⟨.transientNetwork, "ping deadline exceeded after " ++ toString limit ++ "ms"⟩)
      ⟨1, 1, 1⟩ limit
  | pingFailed {opened ended : Nat} {e : ConnectionError} (hdial : dial.Ends 0 limit opened .returns)
      (hping : ping.Ends opened limit ended (.fails e)) :
    Course limit dial ping .ping (some ⟨e.classify, "ping failed: " ++ e.message⟩) ⟨1, 1, 1⟩ ended
  | pinged {opened ended : Nat} (hdial : dial.Ends 0 limit opened .returns)
      (hping : ping.Ends opened limit ended .returns) :
    Course limit dial ping .ping none ⟨1, 1, 1⟩ ended

section Calls

variable {call : Call} {begun limit ended ended' : Nat} {ending ending' : CallEnd}

/-- A call that ends does so by the limit. -/
theorem Call.Ends.le (h : call.Ends begun limit ended ending) : ended ≤ limit := h.choose_spec.2.2

/-- A call ends once. -/
theorem Call.Ends.unique (h : call.Ends begun limit ended ending)
    (h' : call.Ends begun limit ended' ending') : ended = ended' ∧ ending = ending' := by
  obtain ⟨span, rfl, rfl, _⟩ := h
  obtain ⟨span', hcall, rfl, _⟩ := h'
  obtain ⟨hspan, hending⟩ := Call.mk.inj hcall
  exact ⟨congrArg (begun + ·) (Option.some.inj hspan), hending⟩

/-- A call that is late does not end by the limit. -/
theorem Call.IsLate.not_ends (h : call.IsLate begun limit) :
    ¬ call.Ends begun limit ended ending := by
  rintro ⟨span, rfl, rfl, hle⟩
  exact Nat.not_lt.2 hle (h span rfl)

/-- A call is over within the limit, or it is late. -/
theorem Call.ends_or_isLate (call : Call) (begun limit : Nat) :
    (∃ ended, call.Ends begun limit ended call.ending) ∨ call.IsLate begun limit := by
  obtain ⟨span, ending⟩ := call
  cases span with
  | none => exact .inr fun span hspan => nomatch hspan
  | some span =>
      by_cases hle : begun + span ≤ limit
      · exact .inl ⟨begun + span, span, rfl, rfl, hle⟩
      · refine .inr fun span' hspan => ?_
        obtain rfl := Option.some.inj hspan
        exact Nat.lt_of_not_le hle

/-- What ends by the limit is waited for, and its ending is known. -/
theorem runUntil_of_ends (h : call.Ends begun limit ended ending) :
    runUntil limit begun call.span call.ending = .done ended ending := by
  obtain ⟨span, rfl, rfl, hle⟩ := h
  exact if_pos (.inr hle)

/-- What is late is cut off at the limit. -/
theorem runUntil_of_isLate (hbegun : begun ≤ limit) (h : call.IsLate begun limit) :
    runUntil limit begun call.span call.ending = .elapsed limit := by
  unfold runUntil
  cases hspan : call.span with
  | none => exact congrArg Bounded.elapsed (Nat.max_eq_right hbegun)
  | some span =>
      have hlt := h span hspan
      show (if span = 0 ∨ begun + span ≤ limit then _ else _) = _
      rw [if_neg (by omega), Nat.max_eq_right hbegun]

end Calls

section Courses

variable {mode : ProbeMode} {limit spent : Nat} {peer : Peer} {dial ping : Call}
  {failure : Option Failure} {calls : CallCounts}

/-- Every attempt takes a course. -/
theorem exists_course (mode : ProbeMode) (limit : Nat) (hdial : dial.ending ≠ .aborts)
    (hping : ping.ending ≠ .aborts) :
    ∃ failure calls spent, Course limit dial ping mode failure calls spent := by
  by_cases hmode : mode = .off
  · exact hmode ▸ ⟨_, _, _, .disabled⟩
  obtain ⟨opened, hopened⟩ | hlate := dial.ends_or_isLate 0 limit
  · cases hend : dial.ending with
    | aborts => exact absurd hend hdial
    | fails e => exact ⟨_, _, _, .dialFailed hmode (hend ▸ hopened)⟩
    | returns =>
        rw [hend] at hopened
        cases mode with
        | off => exact absurd rfl hmode
        | dial => exact ⟨_, _, _, .dialed hopened⟩
        | ping =>
            obtain ⟨ended, hended⟩ | hlate := ping.ends_or_isLate opened limit
            · cases hend : ping.ending with
              | aborts => exact absurd hend hping
              | fails e => exact ⟨_, _, _, .pingFailed hopened (hend ▸ hended)⟩
              | returns => exact ⟨_, _, _, .pinged hopened (hend ▸ hended)⟩
            · exact ⟨_, _, _, .pingLate hopened hlate⟩
  · exact ⟨_, _, _, .dialLate hmode hlate⟩

/-- The connection is closed once if it was opened, and it is pinged before just in the mode
for this; without a connection there is neither, and the attempt fails. -/
theorem Course.calls_cases (h : Course limit peer.dial peer.ping mode failure calls spent) :
    (mode ≠ .off ∧ peer.Opens limit ∧ calls = ⟨1, if mode = .ping then 1 else 0, 1⟩) ∨
    (¬ (mode ≠ .off ∧ peer.Opens limit) ∧ calls = ⟨if mode = .off then 0 else 1, 0, 0⟩) := by
  cases h with
  | disabled => exact .inr ⟨fun h => h.1 rfl, rfl⟩
  | dialLate hmode hlate =>
      exact .inr ⟨fun ⟨_, _, hdial⟩ => hlate.not_ends hdial, by rw [if_neg hmode]⟩
  | dialFailed hmode hdial =>
      exact .inr ⟨fun ⟨_, _, hdial'⟩ => (nomatch (hdial.unique hdial').2), by rw [if_neg hmode]⟩
  | dialed hdial => exact .inl ⟨by decide, ⟨_, hdial⟩, rfl⟩
  | pingLate hdial _ => exact .inl ⟨by decide, ⟨_, hdial⟩, rfl⟩
  | pingFailed hdial _ => exact .inl ⟨by decide, ⟨_, hdial⟩, rfl⟩
  | pinged hdial _ => exact .inl ⟨by decide, ⟨_, hdial⟩, rfl⟩

/-- A target that is off is left alone. -/
theorem Course.calls_of_off (h : Course limit peer.dial peer.ping mode failure calls spent)
    (hmode : mode = .off) : calls = .zero := by
  rcases h.calls_cases with ⟨hmode', _⟩ | ⟨_, hcalls⟩
  · exact absurd hmode hmode'
  · rw [hcalls, if_pos hmode]
    rfl

/-- Any other target is dialled once. -/
theorem Course.dials_of_not_off (h : Course limit peer.dial peer.ping mode failure calls spent)
    (hmode : mode ≠ .off) : calls.dials = 1 := by
  rcases h.calls_cases with ⟨_, _, hcalls⟩ | ⟨_, hcalls⟩
  · rw [hcalls]
  · rw [hcalls, if_neg hmode]

/-- A peer is pinged at most once, and only over a connection that was opened in time. -/
theorem Course.pings_iff (h : Course limit peer.dial peer.ping mode failure calls spent) :
    calls.pings ≤ 1 ∧ (calls.pings = 1 ↔ mode = .ping ∧ peer.Opens limit) := by
  rcases h.calls_cases with ⟨_, hopens, hcalls⟩ | ⟨hnot, hcalls⟩
  · rw [hcalls]
    by_cases hmode : mode = .ping <;> simp [hmode, hopens]
  · have hnot' : ¬ (mode = .ping ∧ peer.Opens limit) := fun hping =>
      hnot ⟨by simp [hping.1], hping.2⟩
    rw [hcalls]
    simp [hnot']

/-- A connection is closed once, if it was opened in time. -/
theorem Course.closes_iff (h : Course limit peer.dial peer.ping mode failure calls spent) :
    calls.closes ≤ 1 ∧ (calls.closes = 1 ↔ mode ≠ .off ∧ peer.Opens limit) := by
  rcases h.calls_cases with ⟨hmode, hopens, hcalls⟩ | ⟨hnot, hcalls⟩
  · rw [hcalls]
    simp [hmode, hopens]
  · rw [hcalls]
    simp [hnot]

/-- An attempt succeeds if the peer is opened and, in the mode for this, pinged within one
limit. -/
theorem exists_course_none_iff : (∃ calls spent, Course limit dial ping mode none calls spent) ↔
    mode ≠ .off ∧ ∃ opened, dial.Ends 0 limit opened .returns ∧
      (mode = .ping → ∃ ended, ping.Ends opened limit ended .returns) := by
  constructor
  · rintro ⟨_, _, h⟩
    cases h with
    | dialed hdial => exact ⟨by decide, _, hdial, fun hmode => nomatch hmode⟩
    | pinged hdial hping => exact ⟨by decide, _, hdial, fun _ => ⟨_, hping⟩⟩
  · rintro ⟨hmode, opened, hdial, hping⟩
    cases mode with
    | off => exact absurd rfl hmode
    | dial => exact ⟨_, _, .dialed hdial⟩
    | ping =>
        obtain ⟨ended, hended⟩ := hping rfl
        exact ⟨_, _, .pinged hdial hended⟩

end Courses

section Attempts

variable {mode : ProbeMode} {limit spent : Nat} {peer : Peer} {callEnds : List Nat}
  {result : AttemptResult} {failure : Option Failure} {calls : CallCounts}

/-- What is known of an attempt that is over and was not torn down. -/
structure Attempt.Shows (a : Attempt) (failure : Option Failure) (calls : CallCounts)
    (time : Nat) : Prop where
  result : a.result ≠ .aborted
  failure : a.result.failure? = failure
  calls : a.calls = calls
  elapsed : a.elapsed = time

/-- A connection is closed at the end of its grace, at the latest. -/
theorem runUntil_closeGrace {now : Nat} {call : Call} :
    runUntil (now + closeGrace) now call.span call.ending = .done (now + call.graced) call.ending ∨
      runUntil (now + closeGrace) now call.span call.ending = .elapsed (now + call.graced) := by
  obtain ⟨span, ending⟩ := call
  unfold runUntil Call.graced
  cases span with
  | none =>
      right
      exact congrArg Bounded.elapsed (Nat.max_eq_right (Nat.le_add_right now closeGrace))
  | some span =>
      dsimp only
      by_cases hle : span ≤ closeGrace
      · left
        rw [if_pos (.inr (Nat.add_le_add_left hle now)), Nat.min_eq_left hle]
      · right
        have hlate : ¬ (span = 0 ∨ now + span ≤ now + closeGrace) := by omega
        rw [if_neg hlate, Nat.min_eq_right (by omega),
          Nat.max_eq_right (Nat.le_add_right now closeGrace)]

/-- Closing a connection adds a call, and its time to that of a failure. -/
theorem closeAfter_shows (hclose : peer.close.ending ≠ .aborts) (hresult : result ≠ .aborted)
    (hlength : callEnds.length = calls.dials + calls.pings) (hcalls : calls.closes = 0) :
    (closeAfter peer callEnds result calls).Shows result.failure?
      ⟨calls.dials, calls.pings, 1⟩
      (timeTold result.failure? ⟨calls.dials, calls.pings, 1⟩ (callEnds.getLastD 0)
        peer.close.graced) := by
  let now := callEnds.getLastD 0
  have hshows : Attempt.Shows ⟨callEnds ++ [now + peer.close.graced], result,
      ⟨calls.dials, calls.pings, calls.closes + 1⟩⟩ result.failure?
      ⟨calls.dials, calls.pings, 1⟩
      (timeTold result.failure? ⟨calls.dials, calls.pings, 1⟩ now peer.close.graced) :=
    { result := hresult
      failure := rfl
      calls := by rw [hcalls]
      elapsed := by
        cases result with
        | succeeded =>
            show ((callEnds ++ [_]).take (calls.dials + calls.pings)).getLastD 0 = now
            rw [← hlength, List.take_left]
        | failed e => exact List.getLastD_concat
        | aborted => exact absurd rfl hresult }
  unfold closeAfter
  dsimp only
  rcases runUntil_closeGrace with hrun | hrun
  · rw [hrun]
    cases hend : peer.close.ending with
    | aborts => exact absurd hend hclose
    | returns | fails => exact hshows
  · rw [hrun]
    exact hshows

/-- The message of a phase that ran out of time tells the whole limit. -/
theorem deadline_toFailure (phase : Phase) (limit : Nat) :
    (ProbeError.deadline phase (limit * 1000)).toFailure =
      ⟨.transientNetwork, phase.name ++ " deadline exceeded after " ++ toString limit ++ "ms"⟩ := by
  rw [ProbeError.toFailure, ProbeError.message, Nat.mul_div_cancel limit (by decide)]
  rfl

/-- What is known of an attempt that takes a course. -/
theorem attempt_of_course (hclose : peer.close.ending ≠ .aborts)
    (h : Course limit peer.dial peer.ping mode failure calls spent) :
    (attempt mode limit peer).Shows failure calls
      (timeTold failure calls spent peer.close.graced) := by
  have hbudget : (Budget.start 0 limit).expiresAt = limit := Nat.zero_add limit
  cases h with
  | disabled => exact ⟨nofun, rfl, rfl, rfl⟩
  | dialLate hmode hlate =>
      have hrun := runUntil_of_isLate (Nat.zero_le limit) hlate
      simp only [attempt, if_neg hmode, Budget.run, hbudget, hrun]
      exact ⟨nofun, congrArg some (deadline_toFailure .dial limit), rfl, rfl⟩
  | dialFailed hmode hdial =>
      simp only [attempt, if_neg hmode, Budget.run, hbudget, runUntil_of_ends hdial]
      exact ⟨nofun, rfl, rfl, rfl⟩
  | dialed hdial =>
      simp only [attempt, Budget.run, hbudget, runUntil_of_ends hdial]
      exact closeAfter_shows hclose nofun rfl rfl
  | pingLate hdial hlate =>
      have hrun := runUntil_of_isLate hdial.le hlate
      simp only [attempt, pingAndClose, Budget.run, hbudget, runUntil_of_ends hdial, hrun]
      have hfailure := congrArg some (deadline_toFailure .ping limit)
      exact hfailure ▸ closeAfter_shows hclose nofun rfl rfl
  | pingFailed hdial hping =>
      simp only [attempt, pingAndClose, Budget.run, hbudget, runUntil_of_ends hdial,
        runUntil_of_ends hping]
      exact closeAfter_shows hclose nofun rfl rfl
  | pinged hdial hping =>
      simp only [attempt, pingAndClose, Budget.run, hbudget, runUntil_of_ends hdial,
        runUntil_of_ends hping]
      exact closeAfter_shows hclose nofun rfl rfl

/-- A success does not tell how long it took to close the connection, and where there was
none a failure does not either. -/
theorem timeTold_eq_spent (h : failure = none ∨ calls.closes = 0) (closing : Nat) :
    timeTold failure calls spent closing = spent := by
  unfold timeTold
  rcases h with rfl | hcloses
  · exact if_neg fun hsome => by cases hsome.1
  · exact if_neg fun hclosed => by omega

end Attempts

namespace Rehearsal.World

/-- A probe that was not torn down gives its worker an outcome. -/
theorem endProbe_of_not_aborted {w : World} {i : Nat} {t : Target} {p : ProbeUnderWay}
    (hw : w.probes[i]? = some p) (h : p.attempt.result ≠ .aborted) :
    w.endProbe i t = w.move (.worker i (.probed (outcomeOf t p))) := by
  unfold endProbe
  rw [hw]
  dsimp only [Option.getD_some]
  split
  · next haborted => exact absurd haborted h
  · rfl

/-- The time that an outcome tells, saturated at 32 bits. -/
theorem latency_outcomeOf {t : Target} {begun time : Nat} {a : Attempt} {waits : List Nat}
    {failure : Option Failure} {calls : CallCounts} (h : a.Shows failure calls time) :
    (outcomeOf t ⟨begun, a, waits⟩).latency = UInt32.ofNat (min time 4294967295) := by
  rw [← h.elapsed]
  rfl

/-- **What an attempt does and how it turns out.**  Let the target, the limit and the peer be
any, but that no call tears its caller down.  Nothing is called if the target is not to be
probed.  Otherwise a connection is opened once; it is pinged once, if it was opened within
the limit and the mode asks for it, and closed once, if it was opened within the limit.  The
worker has one outcome for the target.  It is a success if the connection was opened, and
pinged where the mode asks for it, within one limit for both; otherwise its failure is that
of the course that the attempt took.  Its time is the one until the last call before closing,
and if the attempt failed after the connection was opened, with the time to close it.  But
for this time the outcome is the same however the connection is closed, and that of a success
or of an attempt without a connection is the same altogether. -/
theorem attempts_take_their_course {peer : Peer} (hcalm : peer.IsCalm) (t : Target)
    (limit begun : Nat) (waits : List Nat) :
    let a := attempt t.mode limit peer
    let o := outcomeOf t ⟨begun, a, waits⟩
    (t.mode = .off →
      a.calls = .zero ∧ o.failure = some ⟨.fatal, "probing disabled for target"⟩) ∧
    (t.mode ≠ .off → a.calls.dials = 1) ∧
    (a.calls.pings ≤ 1 ∧ (a.calls.pings = 1 ↔ t.mode = .ping ∧ peer.Opens limit)) ∧
    (a.calls.closes ≤ 1 ∧ (a.calls.closes = 1 ↔ t.mode ≠ .off ∧ peer.Opens limit)) ∧
    (∀ (w : World) (i : Nat), w.probes[i]? = some ⟨begun, a, waits⟩ →
      w.endProbe i t = w.move (.worker i (.probed o))) ∧
    o.target = t.id ∧
    (o.failure = none ↔ t.mode ≠ .off ∧ ∃ opened, peer.dial.Ends 0 limit opened .returns ∧
      (t.mode = .ping → ∃ ended, peer.ping.Ends opened limit ended .returns)) ∧
    (∀ f, o.failure = some f ↔
      ∃ calls spent, Course limit peer.dial peer.ping t.mode (some f) calls spent) ∧
    (∀ failure calls spent, Course limit peer.dial peer.ping t.mode failure calls spent →
      o.latency =
        UInt32.ofNat (min (timeTold failure calls spent peer.close.graced) 4294967295)) ∧
    (∀ close : Call, close.ending ≠ .aborts → ∀ waits' : List Nat,
      let a' := attempt t.mode limit { peer with close := close }
      let o' := outcomeOf t ⟨begun, a', waits'⟩
      a'.calls = a.calls ∧ { o' with latency := o.latency } = o ∧
        (o.failure = none ∨ a.calls.closes = 0 → o' = o)) := by
  intro a o
  obtain ⟨failure, calls, spent, hcourse⟩ := exists_course t.mode limit hcalm.dial hcalm.ping
  have ha := attempt_of_course hcalm.close hcourse
  have hfailure : ∀ f, o.failure = f ↔
      ∃ calls spent, Course limit peer.dial peer.ping t.mode f calls spent := by
    intro f
    constructor
    · intro hf
      obtain rfl : failure = f := ha.failure.symm.trans hf
      exact ⟨calls, spent, hcourse⟩
    · rintro ⟨calls', spent', hcourse'⟩
      exact (attempt_of_course hcalm.close hcourse').failure
  have hpings := hcourse.pings_iff
  have hcloses := hcourse.closes_iff
  rw [← ha.calls] at hpings hcloses
  refine ⟨fun hmode => ⟨ha.calls.trans (hcourse.calls_of_off hmode), ?_⟩,
    fun hmode => ha.calls ▸ hcourse.dials_of_not_off hmode, hpings, hcloses,
    fun w i hw => endProbe_of_not_aborted hw ha.result, rfl,
    (hfailure none).trans exists_course_none_iff, fun f => hfailure (some f), ?_, ?_⟩
  · rw [hfailure, hmode]
    exact ⟨_, _, .disabled⟩
  · intro failure' calls' spent' hcourse'
    exact latency_outcomeOf (attempt_of_course hcalm.close hcourse')
  · intro close hclose waits' a' o'
    have ha' : a'.Shows failure calls (timeTold failure calls spent close.graced) :=
      attempt_of_course hclose hcourse
    have hsame : o'.failure = o.failure := ha'.failure.trans ha.failure.symm
    have hrest : { o' with latency := o.latency } = o := by
      show (⟨t.id, moment begun, o.latency, o'.failure⟩ : Outcome) = o
      rw [hsame]
      rfl
    refine ⟨ha'.calls.trans ha.calls.symm, hrest, fun hnone => ?_⟩
    have hspent : failure = none ∨ calls.closes = 0 := by
      rw [← ha.failure, ← ha.calls]
      exact hnone
    have hlatency : o'.latency = o.latency := by
      rw [latency_outcomeOf ha', latency_outcomeOf ha, timeTold_eq_spent hspent,
        timeTold_eq_spent hspent]
    rw [← hrest, ← hlatency]

/-- A message that would be back in time, were it not for the time it took to open the
connection, is late; the connection is closed nevertheless, and that it fails to close is
not told, but for the time it takes. -/
theorem attempts_take_their_course_ping_runs_out :
    let peer : Peer :=
      ⟨⟨some 300, .returns⟩, ⟨some 800, .returns⟩, ⟨some 90, .fails (.protocol "reset")⟩⟩
    let a := attempt .ping 1000 peer
    peer.IsCalm ∧ a.calls.pings = 1 ∧ a.calls.closes = 1 ∧
      (outcomeOf (.fresh default "" .ping) ⟨0, a, []⟩).failure =
        some ⟨.transientNetwork, "ping deadline exceeded after 1000ms"⟩ ∧
      (outcomeOf (.fresh default "" .ping) ⟨0, a, []⟩).latency = 1090 := by
  intro peer a
  have hcalm : peer.IsCalm := ⟨by decide, by decide, by decide⟩
  have hopened : peer.dial.Ends 0 1000 300 .returns := ⟨300, rfl, rfl, by decide⟩
  have hlate : peer.ping.IsLate 300 1000 := by
    intro span hspan
    obtain rfl := Option.some.inj hspan
    decide
  obtain ⟨_, _, ⟨_, hpings⟩, ⟨_, hcloses⟩, _, _, _, hfails, hlatency, _⟩ :=
    attempts_take_their_course hcalm (.fresh default "" .ping) 1000 0 []
  exact ⟨hcalm, hpings.2 ⟨rfl, 300, hopened⟩, hcloses.2 ⟨by decide, 300, hopened⟩,
    (hfails _).2 ⟨_, _, .pingLate hopened hlate⟩, hlatency _ _ _ (.pingLate hopened hlate)⟩

/-- **Closing lengthens a failure.**  A message fails after 20 milliseconds, and the outcome
tells 120 if it takes 100 of them to close the connection. -/
theorem closing_lengthens_a_failure :
    ∃ (peer : Peer) (close : Call), peer.IsCalm ∧ close.ending = .returns ∧
      (outcomeOf (.fresh default "" .ping) ⟨0, attempt .ping 1000 peer, []⟩).latency = 120 ∧
      (outcomeOf (.fresh default "" .ping)
        ⟨0, attempt .ping 1000 { peer with close := close }, []⟩).latency = 20 :=
  ⟨⟨⟨some 10, .returns⟩, ⟨some 10, .fails (.protocol "reset")⟩, ⟨some 100, .returns⟩⟩, .prompt,
    ⟨by decide, by decide, by decide⟩, rfl, by decide, by decide⟩

end Rehearsal.World

end PeerWatch
