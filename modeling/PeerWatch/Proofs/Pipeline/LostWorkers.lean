import Mathlib.Logic.Relation
import PeerWatch.Proofs.Pipeline.CleanStops
import PeerWatch.Proofs.Pipeline.Teardown

/-!
# A worker that is lost

A pool that has lost a worker, and has noted it, says so only when it ends, and it ends when
all its workers are gone.  The others do not leave because of it: a worker that finds no
target waits for one as long as the loader is there, and it is the end of the pool that would
send the loader away.  So the pipeline runs on with fewer workers, and shows that it runs.

Once the loader is gone for another reason, or there is no other worker, the pool comes to
its end without any help from outside, and the supervisor publishes the failure and gives
the signal.  So whenever a pipeline ends that has lost a worker, it ends as failed.

* `Move.isInner` — a move of those behind the loader;
* `System.Untold` — what a pipeline shows as long as no stage has ended;
* `System.AwaitsTarget`, `System.AwaitsTarget.step` — a worker that stays;
* `System.Proceeds`, `System.Loses.exists_told` — how a pool that can end is heard of;
* `System.lost_worker_shows_when_the_pool_ends`.
-/

namespace PeerWatch

/-- Whether a move is one of the workers, the pool, the recorder, the collector or the
supervisor: neither the loader's nor somebody's asking for an end. -/
def Move.isInner : Move → Bool
  | .loader _ | .ask | .signal => false
  | .worker .. | .pool _ | .recorder _ | .collector _ | .supervisor _ => true

/-- A supervisor has nothing to do before a stage has ended. -/
theorem Supervisor.not_moves_of_fresh {v : Supervisor} {e : SupervisorEvent} :
    ¬ Supervisor.fresh.Moves none e v := by
  intro h
  cases h with
  | noted _ hnext => cases hnext
  | concluded _ hnoted => cases hnoted
  | published h | alarmed h | closed h => cases h

/-- A worker that waits can only take a target or learn that there will be none. -/
theorem Worker.Moves.of_waiting {w w' : Worker} {e : WorkerEvent} (h : w.Moves e w')
    (hwaiting : w.phase = .waiting) : (∃ t, e = .took t) ∨ e = .finished := by
  cases h with
  | took => exact .inl ⟨_, rfl⟩
  | finished => exact .inr rfl
  | probed hphase | tornDown hphase | emitted hphase | turnedAway hphase | offered hphase
  | reported hphase =>
      rw [hwaiting] at hphase
      cases hphase

namespace System

variable {s s' : System} {m : Move} {settings : Settings} {moves more : List Move}

section Untold

/-- **Before a stage has ended** the supervisor is as it was at the start, and so is the
signal, if nobody has asked for an end. -/
structure Untold (s : System) : Prop where
  asking : s.asking = 0
  untold : s.ended = [] → s.supervisor = .fresh ∧ s.shutdown.triggered = false

/-- At the start no stage has ended, and nobody has asked. -/
theorem untold_start (settings : Settings) : (start settings).Untold := ⟨rfl, fun _ => ⟨rfl, rfl⟩⟩

/-- **One move** by which nobody asks tells the supervisor nothing, before a stage has ended. -/
theorem Untold.step (h : s.Untold) (hmoves : s.Moves m s') (hask : m ≠ .ask) : s'.Untold := by
  cases hmoves with
  | asked => exact absurd rfl hask
  | gaveSignal hasking =>
      rw [h.asking] at hasking
      cases hasking
  | stageNoted hv | published hv | alarmed hv | concluded hv | closed hv =>
      refine ⟨h.asking, fun hended => ?_⟩
      have hended : s.ended = [] := hended
      rw [(h.untold hended).1, nextEnded?, hended, List.getElem?_nil] at hv
      exact absurd hv Supervisor.not_moves_of_fresh
  | signalled =>
      refine ⟨h.asking, ?_⟩
      rw [Shutdown.triggered_receive]
      exact h.untold
  | loaderReported | loaderTorn | poolEnded | recorderReported | recorderTorn =>
      exact ⟨h.asking, fun hended => h.untold (List.append_eq_nil_iff.1 hended).1⟩
  | _ => exact ⟨h.asking, h.untold⟩

/-- In a run in which nobody asks, the supervisor is told nothing before a stage has ended. -/
theorem untold_of_run (h : Run step (start settings) moves s) (hask : .ask ∉ moves) :
    s.Untold := by
  induction h with
  | nil => exact untold_start settings
  | snoc _ hstep ih =>
      rw [List.mem_append, List.mem_singleton, not_or] at hask
      exact (ih hask.1).step (moves_of_step hstep) (Ne.symm hask.2)

/-- Nothing is in the list of ended stages as long as all are there. -/
theorem Noted.ended_eq_nil (h : s.Noted) (hloader : s.loader.isGone = false)
    (hpool : s.pool.hasEnded = false) (hrecorder : s.recorder.isGone = false) : s.ended = [] := by
  apply List.eq_nil_iff_forall_not_mem.2
  intro ⟨stage, result⟩ hmem
  have hended := Option.isSome_of_eq_some (h.results stage result hmem)
  rw [isSome_result?] at hended
  cases stage <;> simp_all

end Untold

section Awaiting

variable {i : Nat} {w : Worker}

/-- **A worker that stays:** it waits for a target, there is none, and the loader is there. -/
structure AwaitsTarget (s : System) (i : Nat) (w : Worker) : Prop where
  worker : s.workers[i]? = some w
  waiting : w.phase = .waiting
  queue : s.targets.queue = []
  loader : s.loader.isGone = false

/-- **One move** that is not the loader's leaves it where it is. -/
theorem AwaitsTarget.step (h : s.AwaitsTarget i w) (hmoves : s.Moves m s') (hinner : m.isInner) :
    s'.AwaitsTarget i w where
  worker := by
    rcases hmoves.worker .empty i with ⟨hsame, _⟩ | ⟨v, _, e, rfl, hv, _, hevent, _⟩
    · rw [hsame]
      exact h.worker
    · obtain rfl : w = v := Option.some.inj (h.worker.symm.trans hv)
      rcases hevent.of_waiting h.waiting with ⟨t, rfl⟩ | rfl
      · cases hmoves with
        | took _ _ hqueue =>
            rw [h.queue] at hqueue
            cases hqueue
      · cases hmoves with
        | workerFinished _ _ hfinished =>
            have hgone := (Bool.and_eq_true_iff.1 hfinished).1
            rw [h.loader] at hgone
            cases hgone
  waiting := h.waiting
  queue := by
    cases hmoves with
    | handed => cases hinner
    | took _ _ hqueue =>
        rw [h.queue] at hqueue
        cases hqueue
    | poolEnded => rfl
    | _ => exact h.queue
  loader := by
    rcases hmoves.loader .empty with ⟨hsame, _⟩ | ⟨e, rfl, _⟩
    · rw [hsame]
      exact h.loader
    · cases hinner

/-- It stays whatever the others do. -/
theorem AwaitsTarget.of_run (h : s.AwaitsTarget i w) (hmore : Run System.step s more s')
    (hinner : ∀ m ∈ more, m.isInner) : s'.AwaitsTarget i w := by
  induction hmore with
  | nil => exact h
  | snoc _ hstep ih =>
      have hnow := ih fun m hm => hinner m (List.mem_append_left _ hm)
      exact hnow.step (moves_of_step hstep) (hinner _ (List.mem_append_right _ (by simp)))

/-- The pool has not ended as long as it stays. -/
theorem AwaitsTarget.not_ended (h : s.AwaitsTarget i w) (hpool : s.pool.Watches s.workers) :
    s.pool.hasEnded = false := by
  cases hended : s.pool.hasEnded with
  | false => rfl
  | true =>
      have hgone := (hpool.all_gone (hpool.ended hended) w (List.mem_of_getElem? h.worker)).1
      simp [Worker.isGone, h.waiting] at hgone

end Awaiting

section Telling

/-- Something is done behind the loader that waits for no time to pass, with the answers
of the peers and the store. -/
def Proceeds (replies : Replies) (s s' : System) : Prop :=
  ∃ m, m.isInner ∧ s.GoesOn replies m ∧ s.step m = some s'

/-- Nobody goes on but those behind the loader, if it is gone. -/
theorem GoesOn.isInner {replies : Replies} (h : s.GoesOn replies m) (hgone : s.loader.isGone) :
    m.isInner := by
  cases m with
  | loader e =>
      obtain ⟨s', hstep⟩ := Option.isSome_iff_exists.1 h.enabled
      obtain ⟨l, hl, _⟩ := Option.bind_eq_some_iff.1 hstep
      rw [(Loader.moves_of_step hl).not_gone] at hgone
      cases hgone
  | ask | signal => exact absurd h.work (by decide)
  | worker | pool | recorder | collector | supervisor => rfl

/-- **A pipeline that has lost a worker,** and whose other workers do not wait for the
loader. -/
structure Loses (s : System) : Prop where
  wired : s.Wired
  supervised : s.Supervised
  orderly : s.Orderly
  noted : s.Noted
  torn : ∃ w ∈ s.workers, w.phase = .tornDown
  left : s.loader.isGone ∨ s.workersGone

/-- No move brings back a worker that was lost. -/
theorem Loses.step (h : s.Loses) (hmoves : s.Moves m s') : s'.Loses where
  wired := h.wired.move hmoves
  supervised := h.supervised.step (.move hmoves)
  orderly := h.orderly.step hmoves
  noted := h.noted.step h.orderly.pool hmoves
  torn := hmoves.torn h.torn
  left := by
    rcases h.left with hgone | hgone
    · left
      rw [hmoves.loader_gone hgone]
      exact hgone
    · right
      rw [workersGone, hmoves.workers_gone hgone]
      exact hgone

/-- Somebody behind the loader goes on until the pool has ended and the supervisor is done
with all that has. -/
theorem Loses.goesOn_or (h : s.Loses) (replies : Replies) :
    (∃ m, m.isInner ∧ s.GoesOn replies m) ∨
      s.pool.hasEnded ∧ s.supervisor.noted = s.ended.length ∧
        s.supervisor.phase ≠ .publishing ∧ s.supervisor.phase ≠ .alarming := by
  cases hpool : s.pool.hasEnded with
  | false =>
      left
      cases hworkers : s.workersGone with
      | true =>
          obtain ⟨e, he⟩ := h.wired.pool_goesOn hworkers hpool replies
          exact ⟨_, rfl, he⟩
      | false =>
          have hloader := h.left.resolve_right (by simp [hworkers])
          obtain ⟨w, hmem, hw⟩ := List.all_eq_false.1 hworkers
          obtain ⟨i, hi⟩ := List.getElem?_of_mem hmem
          have hgoesOn : s.CanGoOn replies :=
            h.wired.worker_goesOn hloader hi (Bool.eq_false_iff.2 hw)
          obtain ⟨m, hm⟩ := hgoesOn
          exact ⟨m, hm.isInner hloader, hm⟩
  | true =>
      by_cases hpending : s.supervisor.phase = .publishing ∨ s.supervisor.phase = .alarming ∨
          s.supervisor.phase = .watching ∧ s.supervisor.noted < s.ended.length
      · obtain ⟨e, he⟩ := supervisor_goesOn_of_pending replies hpending
        exact .inl ⟨_, rfl, he⟩
      · simp only [not_or, not_and] at hpending
        obtain ⟨hpublishing, halarming, hwatching⟩ := hpending
        refine .inr ⟨rfl, ?_, hpublishing, halarming⟩
        have hcounted := h.supervised.notes.counted
        have hlength := Supervisor.length_le_of_nodup h.supervised.once
        rw [List.length_map] at hlength
        by_cases hconcluded : s.supervisor.hasConcluded
        · have hall := (h.supervised.notes.concluded hconcluded).1
          omega
        · have hphase : s.supervisor.phase = .watching := by
            cases hphase : s.supervisor.phase <;> simp_all [Supervisor.hasConcluded]
          have hless := hwatching hphase
          omega

/-- What others are told when the pool has ended and the supervisor is done with it. -/
theorem Loses.told (h : s.Loses) (hended : s.pool.hasEnded)
    (hnoted : s.supervisor.noted = s.ended.length) (hpublishing : s.supervisor.phase ≠ .publishing)
    (halarming : s.supervisor.phase ≠ .alarming) :
    (.probe, .error (.torn .probe)) ∈ s.ended ∧ s.supervisor.state = .failed ∧
      s.shutdown.triggered := by
  obtain ⟨w, hw, htorn⟩ := h.torn
  have htear := (h.orderly.pool.all_gone (h.orderly.pool.ended hended) w hw).2 htorn
  have hresult : s.result? .probe = some (.error (.torn .probe)) := by
    simp [System.result?, hended, Pool.result, htear]
  obtain ⟨result, hmem⟩ := h.wired.listed .probe (by simp [hresult])
  obtain rfl : result = .error (.torn .probe) :=
    Option.some.inj ((h.noted.results _ _ hmem).symm.trans hresult)
  have hheld : s.supervisor.errors.held.isSome := by
    rw [h.supervised.publishes.held, hnoted, List.take_length, List.findSome?_isSome_iff]
    exact ⟨_, hmem, rfl⟩
  exact ⟨hmem, h.supervised.publishes.state_of_held hheld hpublishing,
    h.supervised.publishes.triggered_of_held hheld hpublishing halarming⟩

/-- **They are told in the end:** there is only so much to do before. -/
theorem Loses.exists_told (h : s.Loses) (replies : Replies) :
    ∃ s', Relation.ReflTransGen (Proceeds replies) s s' ∧
      (.probe, .error (.torn .probe)) ∈ s'.ended ∧ s'.supervisor.state = .failed ∧
      s'.shutdown.triggered := by
  induction htoDo : s.toDo using Nat.strong_induction_on generalizing s with
  | _ n ih =>
      rcases h.goesOn_or replies with ⟨m, hinner, hm⟩ | ⟨hended, hnoted, hpublishing, halarming⟩
      · obtain ⟨next, hstep⟩ := Option.isSome_iff_exists.1 hm.enabled
        have hmoves := moves_of_step hstep
        have hlooked : m ≠ .loader .looked := by
          rintro rfl
          cases hinner
        have hless := (hmoves.toDo h.supervised fun h => absurd h hlooked).2 hm.work
        rw [htoDo] at hless
        obtain ⟨s', hproceeds, htold⟩ := ih next.toDo hless (h.step hmoves) rfl
        exact ⟨s', .head ⟨m, hinner, hm, hstep⟩ hproceeds, htold⟩
      · exact ⟨s, .refl, h.told hended hnoted hpublishing halarming⟩

end Telling

section LostWorkers

variable {log : Chronicle}

/-- Wherever a run leads, the pool has seen a tear only if a worker was torn down. -/
theorem torn_of_run (h : Run step (start settings) moves s) (htear : s.pool.sawTear) :
    ∃ w ∈ s.workers, w.phase = .tornDown := by
  refine h.invariant (P := fun s => s.pool.sawTear → ∃ w ∈ s.workers, w.phase = .tornDown)
    (by cases ·) ?_ htear
  intro now m next hnow hstep
  exact (moves_of_step hstep).tear hnow

/-- A pipeline that ends with a worker torn down has failed. -/
theorem failed_of_torn (h : Run step (start settings) moves s)
    (htorn : ∃ w ∈ s.workers, w.phase = .tornDown) {verdict : RunState}
    (hverdict : s.supervisor.verdict? = some verdict) : verdict = .failed := by
  obtain ⟨hterminal, hstate, _⟩ := (supervised_of_run (watched_of_run h)).of_verdict hverdict
  cases verdict with
  | failed => rfl
  | stopped =>
      obtain ⟨w, hw, htorn⟩ := htorn
      have hended := (settled_of_stopped h hstate).workers w hw
      rw [htorn] at hended
      cases hended
  | running | draining => cases hterminal

/-- **A lost worker shows when the pool ends.**  As long as no stage has ended, a pipeline
that nobody has asked for an end shows that it runs, and no error, however many of its
workers were lost; and a worker that waits for a target keeps the pool from ending until
the loader does something, whatever the others do.

When a worker is lost and the loader is gone, or all the other workers are, the pool can end
and say so, however the peers and the store answer; then the supervisor publishes the
failure and gives the signal, and nobody outside has to do anything for it.  A pipeline that
ends after that has failed, and what its workers handed on is committed if the recorder
ended well. -/
theorem lost_worker_shows_when_the_pool_ends
    (hrun : Run chronicled (start settings, .empty) moves (s, log)) :
    (.ask ∉ moves → s.loader.isGone = false → s.pool.hasEnded = false →
      s.recorder.isGone = false →
      s.supervisor.state = .running ∧ s.error? = none ∧ s.shutdown.triggered = false) ∧
    (∀ (i : Nat) (w : Worker), s.workers[i]? = some w → w.phase = .waiting → s.targets.queue = [] →
      s.loader.isGone = false → ∀ more s', Run step s more s' → (∀ m ∈ more, m.isInner) →
      s'.workers[i]? = some w ∧ s'.pool.hasEnded = false) ∧
    (s.pool.sawTear → ∃ w ∈ s.workers, w.phase = .tornDown) ∧
    ((∃ w ∈ s.workers, w.phase = .tornDown) →
      (s.loader.isGone ∨ s.workersGone → ∀ replies : Replies, ∃ s',
        Relation.ReflTransGen (Proceeds replies) s s' ∧
        (.probe, .error (.torn .probe)) ∈ s'.ended ∧ s'.supervisor.state = .failed ∧
        s'.shutdown.triggered) ∧
      ∀ verdict, s.supervisor.verdict? = some verdict →
        verdict = .failed ∧ (s.result? .recorder = some (.ok ()) →
          log.emitted.map (·.2) = log.recorder.committed.flatten)) := by
  have hstep := hrun.unnoted
  have horderly := orderly_of_run hstep
  have hnoted := noted_of_run hstep
  have hwatched := watched_of_run hstep
  refine ⟨fun hask hloader hpool hrecorder => ?_,
    fun i w hw hwaiting hqueue hloader more s' hmore hinner => ?_, torn_of_run hstep,
    fun htorn => ⟨fun hleft => ?_, fun verdict hverdict => ⟨failed_of_torn hstep htorn hverdict,
      fun hresult => ?_⟩⟩⟩
  · have hended := hnoted.ended_eq_nil hloader hpool hrecorder
    obtain ⟨hfresh, hsignal⟩ := (untold_of_run hstep hask).untold hended
    rw [error?, hfresh]
    exact ⟨rfl, rfl, hsignal⟩
  · have hawaits := AwaitsTarget.of_run ⟨hw, hwaiting, hqueue, hloader⟩ hmore hinner
    exact ⟨hawaits.worker, hawaits.not_ended (orderly_of_run (hstep.append hmore)).pool⟩
  · have hloses : s.Loses :=
      ⟨wired_of_run hwatched, supervised_of_run hwatched, horderly, hnoted, htorn, hleft⟩
    exact hloses.exists_told
  · obtain ⟨hended, hunfailed⟩ := Recorder.ended_of_result? hresult
    have houtcomes := outcomes_of_run hrun (by simp [hended]) hunfailed
    exact committed_of_ended horderly (partitions_of_run hrun) houtcomes hended hunfailed

/-- One of two workers is lost with its target, and the other one answers its own and waits.
The pipeline shows that it runs, and the pool does not end, until somebody asks for an end
and the loader leaves; then the failure is published, and in the end the one outcome is
committed. -/
theorem lost_worker_shows_when_the_pool_ends_one_of_two :
    ∃ (settings : Settings) (moves leaving rest : List Move) (s left last : System)
      (log log' log'' : Chronicle),
      Run chronicled (start settings, .empty) moves (s, log) ∧ s.pool.sawTear ∧
      (∃ w ∈ s.workers, w.phase = .tornDown) ∧
      s.supervisor.state = .running ∧ s.error? = none ∧ s.shutdown.triggered = false ∧
      (∀ more s', Run step s more s' → (∀ m ∈ more, m.isInner) → s'.pool.hasEnded = false) ∧
      Run chronicled (s, log) leaving (left, log') ∧ left.loader.isGone ∧
      (∀ replies : Replies, ∃ s', Relation.ReflTransGen (Proceeds replies) left s' ∧
        (.probe, .error (.torn .probe)) ∈ s'.ended ∧ s'.supervisor.state = .failed ∧
        s'.shutdown.triggered) ∧
      Run chronicled (left, log') rest (last, log'') ∧
      last.supervisor.verdict? = some .failed ∧ log''.emitted.length = 1 ∧
      log''.emitted.map (·.2) = log''.recorder.committed.flatten := by
  let settings : Settings := { probe := { concurrency := 2 } }
  let t : Target := default
  let o : Outcome := ⟨t.id, default, 7, none⟩
  let moves : List Move := [.collector .begun, .recorder .begun, .loader .looked,
    .loader (.claimed [t, t]), .loader (.offered true), .loader .looked, .loader .handed,
    .loader .looked, .loader .handed, .worker 0 (.took t), .worker 1 (.took t),
    .worker 0 .tornDown, .pool (.noted 0), .worker 1 (.probed o), .worker 1 .emitted]
  let leaving : List Move := [.ask, .signal, .loader .signalled, .loader (.reported true)]
  let rest : List Move := [.worker 1 .finished, .worker 1 (.reported true), .pool (.noted 1),
    .pool .ended, .supervisor .noted, .supervisor .noted, .supervisor .published,
    .supervisor .alarmed, .recorder (.received o), .recorder .finished, .recorder .committed,
    .recorder (.reported true), .supervisor .noted, .collector (.took (.claimed 2)),
    .collector (.took (.probed ⟨1, 1, 0, 0⟩)), .collector (.took (.committed 1 1)),
    .collector .finished, .supervisor .concluded, .supervisor .closed]
  have hchecked : (moves.foldlM chronicled (start settings, .empty)).any fun now =>
      now.1.loader.isGone = false ∧ now.1.pool.hasEnded = false ∧
        now.1.recorder.isGone = false ∧ now.1.pool.sawTear ∧ now.1.targets.queue = [] ∧
        (now.1.workers[1]?).any (·.phase = .waiting) ∧
        (leaving.foldlM chronicled now).any fun now =>
          now.1.loader.isGone ∧ (∃ w ∈ now.1.workers, w.phase = .tornDown) ∧
          (rest.foldlM chronicled now).any fun now =>
            now.1.supervisor.verdict? = some .failed ∧
            (∃ w ∈ now.1.workers, w.phase = .tornDown) ∧
            now.1.result? .recorder = some (.ok ()) ∧ now.2.emitted.length = 1 := by decide
  obtain ⟨⟨s, log⟩, hrun, hchecked⟩ := Run.exists_of_any hchecked
  obtain ⟨hloader, hpool, hrecorder, htear, hqueue, hworker, hchecked⟩ := of_decide_eq_true hchecked
  obtain ⟨w, hw, hwaiting⟩ := (Option.any_eq_true _ _).1 hworker
  obtain ⟨⟨left, log'⟩, hleaving, hchecked⟩ := Run.exists_of_any hchecked
  obtain ⟨hgone, htorn, hchecked⟩ := of_decide_eq_true hchecked
  obtain ⟨⟨last, log''⟩, hrest, hchecked⟩ := Run.exists_of_any hchecked
  obtain ⟨hverdict, htorn', hresult, hemitted⟩ := of_decide_eq_true hchecked
  obtain ⟨hruns, hawaits, hseen, _⟩ := lost_worker_shows_when_the_pool_ends hrun
  obtain ⟨_, _, _, htold⟩ := lost_worker_shows_when_the_pool_ends (hrun.append hleaving)
  obtain ⟨_, _, _, hends⟩ :=
    lost_worker_shows_when_the_pool_ends ((hrun.append hleaving).append hrest)
  obtain ⟨hstate, herror, hsignal⟩ := hruns (by decide) hloader hpool hrecorder
  exact ⟨settings, moves, leaving, rest, s, left, last, log, log', log'', hrun, htear, hseen htear,
    hstate, herror, hsignal, fun more s' hmore hinner =>
      (hawaits 1 w hw (of_decide_eq_true hwaiting) hqueue hloader more s' hmore hinner).2,
    hleaving, hgone, (htold htorn).1 (.inl hgone), hrest, hverdict, hemitted,
    ((hends htorn').2 _ hverdict).2 hresult⟩

/-- The pool has seen that one of its two workers is lost, and nobody has asked for an end;
and nothing that those behind the loader can do brings the pool to its end. -/
theorem lost_worker_does_not_end_the_pool :
    ∃ (settings : Settings) (moves : List Move) (s : System),
      Run step (start settings) moves s ∧ .ask ∉ moves ∧ s.pool.sawTear ∧
      ¬ ∃ more s', Run step s more s' ∧ (∀ m ∈ more, m.isInner) ∧ s'.pool.hasEnded := by
  let settings : Settings := { probe := { concurrency := 2 } }
  let t : Target := default
  let moves : List Move := [.collector .begun, .recorder .begun, .loader .looked,
    .loader (.claimed [t]), .loader (.offered true), .loader .looked, .loader .handed,
    .worker 0 (.took t), .worker 0 .tornDown, .pool (.noted 0)]
  have hchecked : (moves.foldlM step (start settings)).any fun s =>
      s.pool.sawTear ∧ s.targets.queue = [] ∧ s.loader.isGone = false ∧
        (s.workers[1]?).any (·.phase = .waiting) := by decide
  obtain ⟨s, hrun, hchecked⟩ := Run.exists_of_any hchecked
  obtain ⟨htear, hqueue, hloader, hworker⟩ := of_decide_eq_true hchecked
  obtain ⟨w, hw, hwaiting⟩ := (Option.any_eq_true _ _).1 hworker
  refine ⟨settings, moves, s, hrun, by decide, htear, ?_⟩
  rintro ⟨more, s', hmore, hinner, hended⟩
  have hawaits :=
    AwaitsTarget.of_run ⟨hw, of_decide_eq_true hwaiting, hqueue, hloader⟩ hmore hinner
  rw [hawaits.not_ended (orderly_of_run (hrun.append hmore)).pool] at hended
  cases hended

end LostWorkers

end System

end PeerWatch
