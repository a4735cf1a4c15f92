import Mathlib.Algebra.Ring.Nat
import Mathlib.Data.List.Perm.Subperm
import PeerWatch.Proofs.Pipeline.Supervisors

/-!
# What a pipeline has still to do

Once the loader has been given the signal, no part of a pipeline has more than so much
left to do.  A target on its way costs its probe, an outcome its place in a batch, a
report its sum; a part that is in a phase has the phases after it before it.  What a
part passes on is counted at the other end of the channel, and it costs less there than
it did before.  So every move leaves less to do, except those that are not work: the
tick that finds nothing in the recorder's buffer, and somebody's asking for an end.

* `Loader.toDo`, `Worker.toDo`, `Recorder.toDo`, `System.toDo` — what is left;
* `Loader.Moves.toDo`, `Worker.Moves.toDo`, `Recorder.Moves.toDo` — what an event leaves
  to a part, with what it takes and passes on;
* `System.Moves.toDo`, `System.Watches.toDo` — what a move leaves to all of them.
-/

namespace PeerWatch

/-- What a report costs that goes through the channel; nothing is not reported. -/
def Report.toDo (r : Report) : Nat := if r.isNothing then 0 else 1

/-- A report takes one move to be heard. -/
theorem Report.toDo_le_one (r : Report) : r.toDo ≤ 1 := by
  unfold toDo
  split <;> omega

namespace Loader

variable {l l' : Loader} {e : LoaderEvent}

/-- What a loader has still to do, with the signal before it.  It is at most one batch
away from looking for the signal again. -/
def toDo (l : Loader) : Nat :=
  match l.phase, l.hasLooked with
  | .claiming, false | .resting, false | .handing _, false => 3
  | .claiming, true => 6
  | .resting, true => 4
  | .handing _, true => 15
  | .offering _, _ => 5
  | .reporting, _ => 2
  | .ended, _ | .tornDown, _ => 0

/-- A loader that looks for the signal next has that to do, and its last report. -/
theorem toDo_handing (l : Loader) (rest : List Target) : (l.handing rest).toDo = 3 := by
  cases rest <;> rfl

/-- It has still to report, as long as it is not gone. -/
theorem toDo_of_not_gone (h : l.isGone = false) : 2 ≤ l.toDo := by
  unfold toDo
  split <;> first | omega | simp_all [isGone]

/-- A watchful loader has more to do than one that only has to report. -/
theorem three_le_toDo (h : l.isWatchful) : 3 ≤ l.toDo := by
  unfold toDo
  split <;> first | omega | simp_all [isWatchful]

/-- A loader has a result when it is gone. -/
theorem isSome_result? (l : Loader) : l.result?.isSome = l.isGone := by
  unfold result? isGone
  cases hphase : l.phase with
  | ended => cases hfailure : l.failure <;> simp
  | _ => simp

end Loader

/-- What a loader's event puts into a channel: a target, or a report. -/
def LoaderEvent.passesOn : LoaderEvent → Nat
  | .handed => 10
  | .offered _ | .reported _ => 1
  | _ => 0

/-- **What an event leaves to a loader,** unless the loader looks in vain. -/
theorem Loader.Moves.toDo {l l' : Loader} {e : LoaderEvent} (h : l.Moves e l')
    (he : e ≠ .looked) : l'.toDo + e.passesOn < l.toDo := by
  cases h with
  | looked => exact absurd rfl he
  | signalled hwatchful =>
      have hbefore := three_le_toDo hwatchful
      show 2 + 0 < l.toDo
      omega
  | idled hphase hlooked | claimFailed hphase hlooked | tornDown hphase hlooked =>
      simp [Loader.toDo, enter, hphase, hlooked, LoaderEvent.passesOn]
  | claimed hphase hlooked =>
      simp [Loader.toDo, enter, hphase, hlooked, LoaderEvent.passesOn]
  | offered hphase =>
      rw [toDo_handing]
      simp [Loader.toDo, hphase, LoaderEvent.passesOn]
  | handed hphase hlooked =>
      rw [toDo_handing]
      simp [Loader.toDo, hphase, hlooked, LoaderEvent.passesOn]
  | turnedAway hphase hlooked | rested hphase hlooked =>
      simp [Loader.toDo, enter, hphase, hlooked, LoaderEvent.passesOn]
  | reported hphase => simp [Loader.toDo, enter, hphase, LoaderEvent.passesOn]

/-- What a worker has still to do, without the targets it may take. -/
def Worker.toDo (w : Worker) : Nat :=
  match w.phase with
  | .waiting => 3
  | .probing _ => 12
  | .emitting _ => 11
  | .offering => 5
  | .reporting => 2
  | .ended | .tornDown => 0

/-- What a worker's event takes out of a channel. -/
def WorkerEvent.takesIn : WorkerEvent → Nat
  | .took _ => 10
  | _ => 0

/-- What a worker's event puts into a channel: an outcome, or a report. -/
def WorkerEvent.passesOn : WorkerEvent → Nat
  | .emitted => 5
  | .offered _ | .reported _ => 1
  | _ => 0

/-- **What an event leaves to a worker.** -/
theorem Worker.Moves.toDo {w w' : Worker} {e : WorkerEvent} (h : w.Moves e w') :
    w'.toDo + e.passesOn < w.toDo + e.takesIn := by
  cases h with
  | emitted hphase =>
      by_cases hdue : reportEvery ≤ w.unreported.probed <;>
        simp [Worker.toDo, hphase, hdue, WorkerEvent.passesOn, WorkerEvent.takesIn]
  | took hphase | finished hphase | probed hphase | tornDown hphase | turnedAway hphase
  | offered hphase | reported hphase =>
      simp [Worker.toDo, hphase, WorkerEvent.passesOn, WorkerEvent.takesIn]

namespace Recorder

variable {r r' : Recorder} {e : RecorderEvent}

/-- What a recorder has still to do, without the outcomes it may receive. -/
def toDo (r : Recorder) : Nat :=
  match r.phase with
  | .beginning | .offering _ => 3 + 4 * r.buffer.length + r.pending.toDo
  | .listening => 2 + 4 * r.buffer.length + r.pending.toDo
  | .flushing _ => 5 + r.pending.toDo
  | .reporting => 1 + r.pending.toDo
  | .ended | .tornDown => 0

/-- Who is not gone has something to do. -/
theorem toDo_of_not_gone (h : r.isGone = false) : 1 ≤ r.toDo := by
  unfold toDo
  split <;> first | omega | simp_all [isGone]

/-- A recorder has a result when it is gone. -/
theorem isSome_result? (r : Recorder) : r.result?.isSome = r.isGone := by
  unfold result? isGone
  cases hphase : r.phase with
  | ended => cases hfailure : r.failure <;> simp
  | _ => simp

/-- What is pending after an offer. -/
theorem toDo_pending_afterOffer (r : Recorder) (accepted : Bool) :
    (r.afterOffer accepted).pending.toDo = if accepted then 0 else r.pending.toDo := by
  cases accepted <;> rfl

end Recorder

/-- What a recorder's event takes out of a channel. -/
def RecorderEvent.takesIn : RecorderEvent → Nat
  | .received _ => 5
  | _ => 0

/-- What a recorder's event puts into a channel, where something is pending or not. -/
def RecorderEvent.passesOn (pending : Report) : RecorderEvent → Nat
  | .offered accepted | .idled accepted => if accepted then pending.toDo else 0
  | .reported _ => pending.toDo
  | _ => 0

/-- Whether an event is a tick that finds nothing. -/
def RecorderEvent.isIdle : RecorderEvent → Bool
  | .idled _ => true
  | _ => false

/-- **What an event leaves to a recorder;** a tick that finds nothing leaves no more. -/
theorem Recorder.Moves.toDo {r r' : Recorder} {e : RecorderEvent} (h : r.Moves e r') :
    r'.toDo + e.passesOn r.pending ≤ r.toDo + e.takesIn ∧
      (e.isIdle = false → r'.toDo + e.passesOn r.pending < r.toDo + e.takesIn) := by
  suffices hless : e.isIdle = false → r'.toDo + e.passesOn r.pending < r.toDo + e.takesIn by
    refine ⟨?_, hless⟩
    cases h with
    | idled hphase hbuffer accepted =>
        have hpending := r.toDo_pending_afterOffer accepted
        obtain ⟨_, hphase', hbuffer', _⟩ := afterOffer_eq r accepted
        rw [hphase] at hphase'
        simp only [Recorder.toDo, hphase, hphase', hbuffer', hpending, RecorderEvent.passesOn]
        split <;> omega
    | _ => exact Nat.le_of_lt (hless rfl)
  intro hidle
  cases h with
  | idled => cases hidle
  | begun hphase | tornDown hphase | finished hphase | commitFailed hphase | reported hphase
  | gathered hphase | filled hphase =>
      simp only [Recorder.toDo, Recorder.pending, hphase, RecorderEvent.passesOn,
        RecorderEvent.takesIn, List.length_append, List.length_singleton]
      omega
  | ticked hphase hbuffer | closing hphase hbuffer =>
      have hlength : 0 < r.buffer.length := List.length_pos_iff.2 hbuffer
      simp only [Recorder.toDo, Recorder.pending, hphase, RecorderEvent.passesOn,
        RecorderEvent.takesIn]
      omega
  | @committed cause hphase =>
      have hreport := (Report.committed (r.outcomes + r.buffer.length) (r.batches + 1)).toDo_le_one
      cases cause <;>
        simp only [Recorder.toDo, Recorder.pending, hphase, RecorderEvent.passesOn,
          RecorderEvent.takesIn, reduceCtorEq, if_true, if_false, List.length_nil] <;> omega
  | offered hphase accepted =>
      have hpending := r.toDo_pending_afterOffer accepted
      obtain ⟨_, _, hbuffer', _⟩ := afterOffer_eq r accepted
      show 2 + 4 * (r.afterOffer accepted).buffer.length + (r.afterOffer accepted).pending.toDo +
        _ < _
      simp only [Recorder.toDo, hphase, hbuffer', hpending, RecorderEvent.passesOn,
        RecorderEvent.takesIn]
      split <;> omega

/-- What a pool has still to do. -/
def Pool.toDo (p : Pool) : Nat := p.noted.countP (! ·) + if p.hasEnded then 0 else 1

/-- **What an event leaves to a pool.** -/
theorem Pool.Moves.toDo {p p' : Pool} {workers : List Worker} {e : PoolEvent}
    (h : p.Moves workers e p') : p'.toDo < p.toDo := by
  cases h with
  | @noted i w hw hnoted hgone =>
      obtain ⟨hlt, hfalse⟩ := List.getElem?_eq_some_iff.1 hnoted
      have hcount : 0 < p.noted.countP (! ·) :=
        List.countP_pos_iff.2 ⟨false, List.mem_of_getElem? hnoted, rfl⟩
      have hleft : (p.noted.set i true).countP (! ·) = p.noted.countP (! ·) - 1 := by
        rw [List.countP_set hlt, hfalse]
        rfl
      simp only [Pool.toDo, hleft]
      omega
  | ended hall hended => simp [Pool.toDo, hended]

/-- What a collector has still to do, without the reports it may take. -/
def Collector.toDo (c : Collector) : Nat :=
  match c.phase with
  | .beginning => 2
  | .collecting => 1
  | .ended | .tornDown => 0

/-- What a collector's event takes out of a channel. -/
def CollectorEvent.takesIn : CollectorEvent → Nat
  | .took _ => 1
  | _ => 0

/-- **What an event leaves to a collector.** -/
theorem Collector.Moves.toDo {c c' : Collector} {e : CollectorEvent} (h : c.Moves e c') :
    c'.toDo < c.toDo + e.takesIn := by
  cases h with
  | begun hphase | tornDown hphase | took hphase | finished hphase =>
      simp [Collector.toDo, hphase, CollectorEvent.takesIn]

/-- A list of stages, none of them twice, has no more than there are. -/
theorem Supervisor.length_le_of_nodup {stages : List Stage} (h : stages.Nodup) :
    stages.length ≤ stageCount := by
  have hall : stages ⊆ [.loader, .probe, .recorder] := by
    intro stage _
    cases stage <;> simp
  exact (List.subperm_of_subset h hall).length_le

/-- What a supervisor has still to do: each stage that it has not noted may have failed. -/
def Supervisor.toDo (v : Supervisor) : Nat :=
  3 * (stageCount - v.noted) +
    match v.phase with
    | .publishing => 4
    | .alarming => 3
    | .watching => 2
    | .closing => 1
    | .closed => 0

/-- **What an event leaves to a supervisor.** -/
theorem Supervisor.Moves.toDo {v v' : Supervisor}
    {next : Option (Stage × Except PipelineError Unit)} {e : SupervisorEvent}
    (h : v.Moves next e v') (hnoted : next.isSome → v.noted < stageCount) : v'.toDo < v.toDo := by
  cases h with
  | @noted hphase stage result hnext =>
      have hless := hnoted (Option.isSome_of_eq_some hnext)
      obtain ⟨hcount, _, hcase⟩ := v.note_cases stage result
      have hafter : (v.note stage result).phase = .watching ∨
          (v.note stage result).phase = .publishing ∨ (v.note stage result).phase = .alarming := by
        rcases hcase with ⟨_, _, hsame⟩ | ⟨_, hfailed⟩
        · exact .inl (hsame.trans hphase)
        · exact .inr hfailed
      rcases hafter with hafter | hafter | hafter <;>
        simp only [Supervisor.toDo, hcount, hphase, hafter] <;> omega
  | published hphase | alarmed hphase | concluded hphase | closed hphase =>
      simp [Supervisor.toDo, hphase]

/-- Whether a move is one of those that bring a pipeline to its end: all but the tick that
finds nothing in the recorder's buffer, and somebody's asking for an end. -/
def Move.isWork : Move → Bool
  | .recorder e => !e.isIdle
  | .ask | .signal => false
  | .loader _ | .worker .. | .pool _ | .collector _ | .supervisor _ => true

/-- Whether the move brings the end nearer. -/
def WatchMove.isWork : WatchMove → Bool
  | .move m => m.isWork
  | .brokeOff .. | .collectorBrokeOff => true

namespace System

variable {s s' : System} {m : Move}

/-- What a pipeline has still to do, with the signal before its loader. -/
def toDo (s : System) : Nat :=
  s.loader.toDo + 10 * s.targets.queue.length + (s.workers.map Worker.toDo).sum +
    5 * s.outcomes.queue.length + s.recorder.toDo + s.pool.toDo +
    s.reports.queue.length + s.collector.toDo + s.supervisor.toDo

/-- Before a stage is noted, not all are. -/
theorem Supervised.noted_lt (h : s.Supervised) (hnext : s.nextEnded?.isSome) :
    s.supervisor.noted < Supervisor.stageCount := by
  obtain ⟨hless, _⟩ := List.getElem?_eq_some_iff.1 (Option.some_get hnext).symm
  have hlength := Supervisor.length_le_of_nodup h.once
  rw [List.length_map] at hlength
  exact Nat.lt_of_lt_of_le hless hlength

/-- A report that is offered is in the channel, or it was not accepted. -/
theorem length_offerReport {reports reports' : Channel Report} {pending : Report}
    {accepted : Bool} (h : offerReport reports pending accepted = some reports') :
    reports'.queue.length = reports.queue.length + if accepted then pending.toDo else 0 := by
  unfold offerReport at h
  unfold Report.toDo
  split at h
  · next hnothing =>
      obtain rfl := Option.some.inj h
      cases accepted <;> simp_all
  · next hsomething =>
      obtain ⟨_, rfl⟩ := Channel.push?_eq_some_iff.1 h
      simp_all

/-- A last report is in the channel, or nobody took it. -/
theorem length_lastReport {reports reports' : Channel Report} {pending : Report}
    {accepted : Bool} (h : lastReport reports pending accepted = some reports') :
    reports'.queue.length ≤ reports.queue.length + pending.toDo := by
  unfold lastReport at h
  unfold Report.toDo
  split at h
  · obtain rfl := Option.some.inj h
    exact Nat.le_add_right _ _
  · next hsomething =>
      rw [if_neg hsomething]
      split at h
      · obtain ⟨_, rfl⟩ := Channel.push?_eq_some_iff.1 h
        simp
      · split at h
        · cases h
        · obtain rfl := Option.some.inj h
          exact Nat.le_succ _

/-- A report makes a queue longer by one at most. -/
theorem length_report {reports reports' : Channel Report} {pending : Report} {accepted : Bool}
    (h : offerReport reports pending accepted = some reports' ∨
      lastReport reports pending accepted = some reports') :
    reports'.queue.length ≤ reports.queue.length + 1 := by
  have hone := pending.toDo_le_one
  rcases h with h | h
  · have hlength := length_offerReport h
    split at hlength <;> omega
  · have hlength := length_lastReport h
    omega

/-- What all have to do when one of them goes on. -/
theorem sum_toDo_set {workers : List Worker} {i : Nat} {w : Worker} (hw : workers[i]? = some w)
    (w' : Worker) :
    ((workers.set i w').map Worker.toDo).sum + w.toDo =
      (workers.map Worker.toDo).sum + w'.toDo := by
  induction workers generalizing i with
  | nil => cases hw
  | cons first rest ih =>
      cases i with
      | zero =>
          obtain rfl := Option.some.inj hw
          simp only [List.set_cons_zero, List.map_cons, List.sum_cons]
          omega
      | succ i =>
          have hrest := ih hw
          simp only [List.set_cons_succ, List.map_cons, List.sum_cons]
          omega

section Parts

variable {targets : Channel Target} {outcomes : Channel Outcome} {reports : Channel Report}

/-- What an event at the loader leaves, when no more is in the channels than it passed on. -/
theorem toDo_loader {l : Loader} {e : LoaderEvent} (h : s.loader.Moves e l) (he : e ≠ .looked)
    (hflow : 10 * targets.queue.length + reports.queue.length ≤
      10 * s.targets.queue.length + s.reports.queue.length + e.passesOn) :
    { s with loader := l, targets := targets, reports := reports }.toDo < s.toDo := by
  have hpart := h.toDo he
  simp only [System.toDo]
  omega

/-- What an event at a worker leaves, when no more is in the channels than it passed on and
it took out what it takes. -/
theorem toDo_worker {i : Nat} {w w' : Worker} {e : WorkerEvent} (hw : s.workers[i]? = some w)
    (h : w.Moves e w')
    (hflow : 10 * targets.queue.length + 5 * outcomes.queue.length + reports.queue.length +
        e.takesIn ≤
      10 * s.targets.queue.length + 5 * s.outcomes.queue.length + s.reports.queue.length +
        e.passesOn) :
    { s with workers := s.workers.set i w', targets := targets, outcomes := outcomes
             reports := reports }.toDo < s.toDo := by
  have hpart := h.toDo
  have hsum := sum_toDo_set hw w'
  simp only [System.toDo]
  omega

/-- What an event at the recorder leaves, in the same way. -/
theorem toDo_recorder {r : Recorder} {e : RecorderEvent} (h : s.recorder.Moves e r)
    (hflow : 5 * outcomes.queue.length + reports.queue.length + e.takesIn ≤
      5 * s.outcomes.queue.length + s.reports.queue.length + e.passesOn s.recorder.pending) :
    { s with recorder := r, outcomes := outcomes, reports := reports }.toDo ≤ s.toDo ∧
      (e.isIdle = false →
        { s with recorder := r, outcomes := outcomes, reports := reports }.toDo < s.toDo) := by
  obtain ⟨hle, hlt⟩ := h.toDo
  simp only [System.toDo]
  refine ⟨by omega, fun hidle => ?_⟩
  have hlt := hlt hidle
  omega

/-- What an event at the collector leaves, in the same way. -/
theorem toDo_collector {c : Collector} {e : CollectorEvent} (h : s.collector.Moves e c)
    (hflow : reports.queue.length + e.takesIn ≤ s.reports.queue.length) :
    { s with collector := c, reports := reports }.toDo < s.toDo := by
  have hpart := h.toDo
  simp only [System.toDo]
  omega

end Parts

/-- The loader does not look in vain when the signal waits for it. -/
theorem not_looked {l : Loader} (h : s.loader.Moves .looked l)
    (hsignal : s.loader.isAtWork → s.shutdown.waitsFor 0) : s.shutdown.waitsFor 0 := by
  cases h with
  | looked hwatchful => exact hsignal (Loader.isAtWork_of_isWatchful hwatchful)

/-- **One move** leaves less to do if it is work, and else no more; only the loader's look
for the signal may be in vain. -/
theorem Moves.toDo (h : s.Moves m s') (hsupervised : s.Supervised)
    (hsignal : m = .loader .looked → s.loader.isAtWork → s.shutdown.waitsFor 0) :
    s'.toDo ≤ s.toDo ∧ (m.isWork → s'.toDo < s.toDo) := by
  have hless (hwork : s'.toDo < s.toDo) : s'.toDo ≤ s.toDo ∧ (m.isWork → s'.toDo < s.toDo) :=
    ⟨Nat.le_of_lt hwork, fun _ => hwork⟩
  cases h with
  | looked hl hvain =>
      rw [not_looked hl (hsignal rfl)] at hvain
      cases hvain
  | signalled hl | claimed hl | claimFailed hl | rested hl | loaderTurnedAway hl | loaderTorn hl =>
      exact hless (toDo_loader hl (by simp) (Nat.le_refl _))
  | handed hl =>
      refine hless (toDo_loader hl (by simp) ?_)
      simp only [List.length_append, List.length_singleton, LoaderEvent.passesOn]
      omega
  | loaderOffered hl hreports =>
      have hlength := length_report (.inl hreports)
      exact hless (toDo_loader hl (by simp) (by simp only [LoaderEvent.passesOn]; omega))
  | loaderReported hl hreports =>
      have hlength := length_report (.inr hreports)
      exact hless (toDo_loader hl (by simp) (by simp only [LoaderEvent.passesOn]; omega))
  | took hw hworker hqueue =>
      refine hless (toDo_worker hw hworker ?_)
      simp only [hqueue, List.length_cons, WorkerEvent.takesIn, WorkerEvent.passesOn]
      omega
  | workerFinished hw hworker | probed hw hworker | workerTorn hw hworker
  | workerTurnedAway hw hworker => exact hless (toDo_worker hw hworker (Nat.le_refl _))
  | emitted hw hworker =>
      refine hless (toDo_worker hw hworker ?_)
      simp only [List.length_append, List.length_singleton, WorkerEvent.takesIn,
        WorkerEvent.passesOn]
      omega
  | workerOffered hw hworker hreports =>
      have hlength := length_report (.inl hreports)
      refine hless (toDo_worker hw hworker ?_)
      simp only [WorkerEvent.takesIn, WorkerEvent.passesOn]
      omega
  | workerReported hw hworker hreports =>
      have hlength := length_report (.inr hreports)
      refine hless (toDo_worker hw hworker ?_)
      simp only [WorkerEvent.takesIn, WorkerEvent.passesOn]
      omega
  | poolNoted hp =>
      have hpart := hp.toDo
      refine hless ?_
      simp only [System.toDo]
      omega
  | poolEnded hp =>
      have hpart := hp.toDo
      refine hless ?_
      simp only [System.toDo, Channel.close, List.length_nil]
      omega
  | recorderBegun hr | ticked hr | recorderFinished hr | committed hr | commitFailed hr =>
      exact hless ((toDo_recorder hr (Nat.le_refl _)).2 rfl)
  | received hr hqueue =>
      refine hless ((toDo_recorder hr ?_).2 rfl)
      simp only [hqueue, List.length_cons, RecorderEvent.takesIn, RecorderEvent.passesOn]
      omega
  | idled hr hreports =>
      refine ⟨(toDo_recorder hr ?_).1, (by cases ·)⟩
      simp only [length_offerReport hreports, RecorderEvent.takesIn, RecorderEvent.passesOn]
      omega
  | recorderOffered hr hreports =>
      refine hless ((toDo_recorder hr ?_).2 rfl)
      simp only [length_offerReport hreports, RecorderEvent.takesIn, RecorderEvent.passesOn]
      omega
  | recorderReported hr hreports =>
      have hlength := length_lastReport hreports
      refine hless ((toDo_recorder hr ?_).2 rfl)
      simp only [Channel.close, List.length_nil, RecorderEvent.takesIn, RecorderEvent.passesOn]
      omega
  | recorderTorn hr =>
      refine hless ((toDo_recorder hr ?_).2 rfl)
      simp only [Channel.close, List.length_nil, RecorderEvent.takesIn, RecorderEvent.passesOn]
      omega
  | collectorBegun hc => exact hless (toDo_collector hc (Nat.le_refl _))
  | collectorTook hc hqueue =>
      refine hless (toDo_collector hc ?_)
      simp only [hqueue, List.length_cons, CollectorEvent.takesIn, Nat.le_refl]
  | collectorFinished hc | collectorTorn hc => exact hless (toDo_collector hc (Nat.zero_le _))
  | stageNoted hv | published hv | alarmed hv | concluded hv | closed hv =>
      have hpart := hv.toDo hsupervised.noted_lt
      refine hless ?_
      simp only [System.toDo]
      omega
  | asked | gaveSignal => exact ⟨Nat.le_refl _, (by cases ·)⟩

/-- A stage has a result when it is gone. -/
theorem isSome_result? (s : System) (stage : Stage) : (s.result? stage).isSome =
    match stage with
    | .loader => s.loader.isGone
    | .probe => s.pool.hasEnded
    | .recorder => s.recorder.isGone := by
  cases stage with
  | loader => exact s.loader.isSome_result?
  | probe => cases hended : s.pool.hasEnded <;> simp [result?, hended]
  | recorder => exact s.recorder.isSome_result?

/-- A worker that broke off does nothing more. -/
theorem toDo_torn (workers : List Worker) :
    ((workers.map fun w => if w.isGone then w else { w with phase := .tornDown }).map
      Worker.toDo).sum = 0 := by
  induction workers with
  | nil => rfl
  | cons w rest ih =>
      rw [List.map_cons, List.map_cons, List.sum_cons, ih, Nat.add_zero]
      cases hphase : w.phase <;> simp [Worker.isGone, Worker.toDo, hphase]

/-- **Whatever happens** leaves less to do if it is work, and else no more. -/
theorem Watches.toDo {m : WatchMove} (h : s.Watches m s')
    (hsupervised : s.Supervised) (hsignal : s.loader.isAtWork → s.shutdown.waitsFor 0) :
    s'.toDo ≤ s.toDo ∧ (m.isWork → s'.toDo < s.toDo) := by
  suffices hbroken : (∀ m', m ≠ .move m') → s'.toDo < s.toDo by
    cases h with
    | move h => exact h.toDo hsupervised fun _ => hsignal
    | brokeOff | collectorBrokeOff =>
        have hless := hbroken (by simp)
        exact ⟨Nat.le_of_lt hless, fun _ => hless⟩
  intro hm
  cases h with
  | move => exact absurd rfl (hm _)
  | @brokeOff stage hthere result =>
      have hgone := s.isSome_result? stage
      rw [hthere, Option.isSome_none] at hgone
      cases stage with
      | loader =>
          have hbefore := Loader.toDo_of_not_gone hgone.symm
          have hafter : (s.loader.enter .tornDown).toDo = 0 := rfl
          simp only [without, System.toDo, hafter]
          omega
      | probe =>
          have hended : s.pool.hasEnded = false := hgone.symm
          have hafter := toDo_torn s.workers
          simp only [without, System.toDo, hafter, Pool.toDo, hended, Channel.close,
            List.length_nil]
          simp
          omega
      | recorder =>
          have hbefore := Recorder.toDo_of_not_gone hgone.symm
          have hafter : { s.recorder with phase := .tornDown }.toDo = 0 := rfl
          simp only [without, System.toDo, hafter, Channel.close, List.length_nil]
          omega
  | collectorBrokeOff hthere =>
      have hbefore : 1 ≤ s.collector.toDo := by
        cases hphase : s.collector.phase <;>
          simp_all [Collector.isGone, Collector.toDo]
      have hafter : { s.collector with phase := .tornDown }.toDo = 0 := rfl
      simp only [System.toDo, hafter, Channel.close, List.length_nil]
      omega

end System

end PeerWatch
