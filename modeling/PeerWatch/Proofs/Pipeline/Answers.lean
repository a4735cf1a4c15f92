import PeerWatch.Proofs.Pipeline.Pools
import PeerWatch.Proofs.Pipeline.Verdicts

/-!
# A pool answers each target

As long as somebody takes its outcomes, a pool makes one outcome of each target it
takes, or loses the target with the worker that was torn down by it.  A worker stops only
when there will be no more targets; so when the pool has ended, nothing is left in
anybody's hands, and if no worker was torn down, nothing is left in the channel.

What the workers count follows their outcomes; it is reported, or nobody takes the last
report of a worker, or it is still to be reported.

* `System.Serves`, `System.Serves.step` — what a pool does with its targets;
* `System.Counts`, `System.counts_of_run` — what it counts of its outcomes;
* `System.pool_answers_each_target` — what it has done when it has ended.
-/

namespace PeerWatch

namespace System

variable {s s' : System} {m : PoolMove} {log : PoolLog}

/-- **What a pool does** as long as its outcomes are taken: an outcome for each target;
a worker stops only when there are no more; and what was put into a channel was
taken out, or is in it, or is left in it by workers that were all torn down. -/
structure Serves (s : System) (log : PoolLog) : Prop where
  workers : ∀ (i : Nat) (w : Worker), s.workers[i]? = some w →
    w.Answers (log.work.worker i) (log.lostOf i)
  strangers : ∀ i : Nat, s.workers[i]? = none → log.work.worker i = .empty ∧ log.lostOf i = []
  finished : ∀ w ∈ s.workers, w.isDone → s.targetsFinished
  fed : ∃ left, log.fed = log.work.taken.map (·.2) ++ left ∧
    (s.pool.hasEnded = false ∨ log.lost = [] → left = s.targets.queue)
  outcomes : log.work.emitted.map (·.2) = log.delivered ++ s.outcomes.queue

theorem serves_crew (concurrency targets outcomes reports : Nat) :
    (crew concurrency targets outcomes reports).Serves .empty where
  workers i w hw := by
    obtain rfl := List.eq_of_mem_replicate (List.mem_of_getElem? hw)
    exact Worker.answers_fresh
  strangers _ _ := ⟨rfl, rfl⟩
  finished w hw hdone := by
    obtain rfl := List.eq_of_mem_replicate hw
    cases hdone
  fed := ⟨[], rfl, fun _ => rfl⟩
  outcomes := rfl

section Steps

/-- Where nothing was lost no worker was torn down. -/
theorem Serves.phase_ne_tornDown (h : s.Serves log) (hlost : log.lost = []) :
    ∀ w ∈ s.workers, w.phase ≠ .tornDown := by
  intro w hw
  obtain ⟨i, hi⟩ := List.mem_iff_getElem?.1 hw
  refine (h.workers i w hi).lost_eq_nil_iff.1 ?_
  rw [PoolLog.lostOf, hlost]
  rfl

/-- When all workers are gone and none was torn down, there are no more targets. -/
theorem Serves.targetsFinished (h : s.Serves log) (hkeeps : s.Keeps) (hlost : log.lost = [])
    (hgone : ∀ w ∈ s.workers, w.isGone) : s.targetsFinished := by
  obtain ⟨w, hw⟩ := List.exists_mem_of_ne_nil _ hkeeps.staffed
  have hwhole := h.phase_ne_tornDown hlost w hw
  have hgone := hgone w hw
  simp only [Worker.isGone, hwhole, or_false, decide_eq_true_eq] at hgone
  exact h.finished w hw (by simp [Worker.isDone, hgone])

/-- After a move every worker has answered what it took, or lost it. -/
theorem Serves.workers_step (h : s.Serves log) (hmoves : s.Tends m s')
    (hopen : s.outcomes.isOpen) (i : Nat) :
    (∀ w, s'.workers[i]? = some w →
        w.Answers ((log.note s m).work.worker i) ((log.note s m).lostOf i)) ∧
      (s'.workers[i]? = none →
        (log.note s m).work.worker i = .empty ∧ (log.note s m).lostOf i = []) := by
  rcases hmoves.worker_cases log i with ⟨hsame, hwork, hlost⟩ |
    ⟨w, w', e, rfl, hw, hw', hworker, hwork, hlost⟩
  · rw [hsame, hwork, hlost]
    exact ⟨h.workers i, h.strangers i⟩
  · rw [hw', hwork, hlost]
    refine ⟨?_, (by cases ·)⟩
    intro v hv
    obtain rfl := Option.some.inj hv
    refine (h.workers i w hw).step hworker ?_
    rintro rfl
    rw [hmoves.not_turnedAway] at hopen
    cases hopen

/-- When there will be no more targets, that stays so. -/
theorem Tends.targetsFinished (h : s.Tends m s') (hfinished : s.targetsFinished) :
    s'.targetsFinished := by
  cases h with
  | worker h | pool h => exact h.targetsFinished hfinished
  | fed hthere | left hthere =>
      rw [(Bool.and_eq_true_iff.1 hfinished).1] at hthere
      cases hthere
  | _ => exact hfinished

/-- After a move a worker is done only if no target will come. -/
theorem Serves.finished_step (h : s.Serves log) (hmoves : s.Tends m s')
    (hopen : s.outcomes.isOpen) : ∀ w ∈ s'.workers, w.isDone → s'.targetsFinished := by
  intro v hv hdone
  refine hmoves.targetsFinished ?_
  cases hmoves with
  | worker hstep =>
      obtain ⟨w, w', hw, hworker, hworkers, _⟩ := hstep.of_worker
      rw [hworkers] at hv
      rcases List.mem_or_eq_of_mem_set hv with hv | rfl
      · exact h.finished v hv hdone
      · rcases hstep.done_cases hworker hdone with hbefore | hfinished | ⟨_, hclosed⟩
        · exact h.finished w (List.mem_of_getElem? hw) hbefore
        · exact hfinished
        · rw [hclosed] at hopen
          cases hopen
  | pool hstep =>
      cases hstep with
      | poolNoted | poolEnded => exact h.finished v hv hdone
  | _ => exact h.finished v hv hdone

/-- After a move the targets sent are those taken and those left in the channel. -/
theorem Serves.fed_step (h : s.Serves log) (hkeeps : s.Keeps) (hmoves : s.Tends m s') :
    ∃ left, (log.note s m).fed = (log.note s m).work.taken.map (·.2) ++ left ∧
      (s'.pool.hasEnded = false ∨ (log.note s m).lost = [] → left = s'.targets.queue) := by
  obtain ⟨left, hfed, hleft⟩ := h.fed
  cases hmoves with
  | @worker i _ _ hstep =>
      cases hstep with
      | @took _ w w' t rest hw hworker hqueue =>
          have hthere : s.pool.hasEnded = false := by
            cases hended : s.pool.hasEnded with
            | false => rfl
            | true =>
                rw [hkeeps.targets.queue hended] at hqueue
                cases hqueue
          rw [PoolLog.note_worker hw]
          refine ⟨rest, ?_, fun _ => rfl⟩
          show log.fed = (log.work.taken ++ [(i, t)]).map (·.2) ++ rest
          rw [hfed, hleft (.inl hthere), hqueue, List.map_append, List.append_assoc]
          rfl
      | workerFinished hw | probed hw | workerTorn hw | emitted hw | workerTurnedAway hw
      | workerOffered hw | workerReported hw =>
          rw [PoolLog.note_worker hw]
          refine ⟨left, hfed, fun hwhole => hleft (hwhole.imp_right fun hlost => ?_)⟩
          exact (List.append_eq_nil_iff.1 hlost).1
  | pool hstep =>
      cases hstep with
      | poolNoted hpool =>
          cases hpool with
          | noted => exact ⟨left, hfed, hleft⟩
      | poolEnded hpool =>
          refine ⟨left, hfed, ?_⟩
          cases hpool with
          | ended hall hended =>
              rintro (hthere | hlost)
              · cases hthere
              · have hgone := fun w hw => (hkeeps.pool.all_gone hall w hw).1
                have hfinished := h.targetsFinished hkeeps hlost hgone
                rw [hleft (.inl hended)]
                exact List.isEmpty_iff.1 (Bool.and_eq_true_iff.1 hfinished).2
  | fed hthere hroom t =>
      have hended : s.pool.hasEnded = false := hkeeps.targets.not_gone hroom
      refine ⟨s.targets.queue ++ [t], ?_, fun _ => rfl⟩
      show log.fed ++ [t] = _
      rw [hfed, hleft (.inl hended), List.append_assoc]
      rfl
  | _ => exact ⟨left, hfed, hleft⟩

/-- After a move the outcomes emitted are those delivered and those in the channel. -/
theorem Serves.outcomes_step (h : s.Serves log) (hmoves : s.Tends m s')
    (hopen : s'.outcomes.isOpen) :
    (log.note s m).work.emitted.map (·.2) = (log.note s m).delivered ++ s'.outcomes.queue := by
  have houtcomes := h.outcomes
  cases hmoves with
  | @worker i _ _ hstep =>
      cases hstep with
      | @emitted _ w w' o hw hworker hphase hroom =>
          rw [PoolLog.note_worker hw]
          show (log.work.emitted ++ w.toEmit.map fun o => (i, o)).map (·.2) =
            log.delivered ++ (s.outcomes.queue ++ [o])
          rw [Worker.toEmit, hphase, List.map_append, houtcomes, List.append_assoc]
          rfl
      | took hw | workerFinished hw | probed hw | workerTorn hw | workerTurnedAway hw
      | workerOffered hw | workerReported hw =>
          rw [PoolLog.note_worker hw]
          exact houtcomes
  | pool hstep =>
      cases hstep with
      | poolNoted | poolEnded => exact houtcomes
  | outcomeTaken hqueue =>
      show _ = (log.delivered ++ s.outcomes.queue.head?.toList) ++ _
      rw [hqueue, List.append_assoc]
      rw [hqueue] at houtcomes
      exact houtcomes
  | outcomesClosed => cases hopen
  | _ => exact houtcomes

/-- **Whatever happens at a pool,** it does what it does, as long as its outcomes are
taken. -/
theorem Serves.step (h : s.Serves log) (hkeeps : s.Keeps) (hmoves : s.Tends m s')
    (hopen : s'.outcomes.isOpen) : s'.Serves (log.note s m) := by
  have hbefore := hmoves.outcomes_open hopen
  have hworkers := h.workers_step hmoves hbefore
  exact ⟨fun i => (hworkers i).1, fun i => (hworkers i).2, h.finished_step hmoves hbefore,
    h.fed_step hkeeps hmoves, h.outcomes_step hmoves hopen⟩

end Steps

/-- **What the workers count** was reported, or nobody took their last reports, or it is
still to be reported; and as long as somebody takes reports, none is dropped. -/
structure Counts (s : System) (log : PoolLog) : Prop where
  counted : Totals.sum (log.reported ++ log.dropped) + Totals.sum (s.workers.map (·.pending)) =
    (Report.probed (.ofOutcomes (log.work.probed.map (·.2)))).totals
  heard : s.reports.isOpen → log.reported = log.heard ++ s.reports.queue ∧ log.dropped = []

theorem counts_crew (concurrency targets outcomes reports : Nat) :
    (crew concurrency targets outcomes reports).Counts .empty where
  counted := by
    have hpending : Totals.sum ((crew concurrency targets outcomes reports).workers.map
        (·.pending)) = .zero := by
      refine Totals.sum_map_eq_zero ?_
      intro w hw
      obtain rfl := List.eq_of_mem_replicate hw
      rfl
    rw [hpending]
    rfl
  heard _ := ⟨rfl, rfl⟩

section Counting

/-- An event at a worker adds to what was counted what it counts. -/
theorem totals_noteWorker (log : Chronicle) (i : Nat) (w : Worker) (e : WorkerEvent) :
    (Report.probed (.ofOutcomes ((log.noteWorker i w e).probed.map (·.2)))).totals =
      (Report.probed (.ofOutcomes (log.probed.map (·.2)))).totals + Worker.countedBy e := by
  cases e with
  | probed o =>
      show (Report.probed (.ofOutcomes ((log.probed ++ [(i, o)]).map (·.2)))).totals = _
      rw [List.map_append, List.map_singleton, Report.totals_ofOutcomes_snoc]
      rfl
  | took t | finished | tornDown | emitted | turnedAway | offered accepted | reported accepted =>
      rfl

/-- After a move, what was reported, dropped or is pending is what was probed. -/
theorem Counts.counted_step (h : s.Counts log) (hmoves : s.Tends m s') :
    Totals.sum ((log.note s m).reported ++ (log.note s m).dropped) +
        Totals.sum (s'.workers.map (·.pending)) =
      (Report.probed (.ofOutcomes ((log.note s m).work.probed.map (·.2)))).totals := by
  have hcounted := h.counted
  cases hmoves with
  | @worker i e _ hstep =>
      obtain ⟨w, w', hw, hworker, hworkers, _⟩ := hstep.of_worker
      obtain ⟨others, hsum, hset⟩ := Totals.exists_sum_map_set (·.pending) hw
      rw [hsum, Totals.sum_append] at hcounted
      rw [PoolLog.note_worker hw, hworkers, hset]
      show Totals.sum ((log.reported ++ w.reportedBy e) ++ (log.dropped ++ w.droppedBy e)) + _ =
        (Report.probed (.ofOutcomes ((log.work.noteWorker i w e).probed.map (·.2)))).totals
      rw [totals_noteWorker, ← hcounted, Totals.sum_append, Totals.sum_append, Totals.sum_append]
      calc
        _ = Totals.sum log.reported + Totals.sum log.dropped + others +
            (Totals.sum (w.reportedBy e) + Totals.sum (w.droppedBy e) + w'.pending.totals) := by
          ac_rfl
        _ = _ := by
          rw [hworker.counts]
          ac_rfl
  | pool hstep =>
      cases hstep with
      | poolNoted | poolEnded => exact hcounted
  | _ => exact hcounted

/-- As long as somebody hears, no report is dropped, and those sent are heard or in the channel. -/
theorem Counts.heard_step (h : s.Counts log) (hmoves : s.Tends m s')
    (hopen : s'.reports.isOpen) :
    (log.note s m).reported = (log.note s m).heard ++ s'.reports.queue ∧
      (log.note s m).dropped = [] := by
  have hheard := h.heard
  cases hmoves with
  | worker hstep =>
      cases hstep with
      | @workerOffered i w w' accepted reports hw hworker hreports =>
          obtain ⟨hqueue, hsame⟩ := offerReport_eq hreports
          obtain ⟨hreported, hdropped⟩ := hheard (hsame ▸ hopen)
          rw [PoolLog.note_worker hw]
          show log.reported ++ w.reportedBy _ = log.heard ++ reports.queue ∧
            log.dropped ++ [] = []
          rw [hqueue, hreported, List.append_assoc, List.append_nil]
          cases accepted <;> exact ⟨rfl, hdropped⟩
      | @workerReported i w w' accepted reports hw hworker hreports =>
          obtain ⟨hqueue, hsame, hnone⟩ := lastReport_eq hreports
          obtain ⟨hreported, hdropped⟩ := hheard (hsame ▸ hopen)
          rw [PoolLog.note_worker hw]
          show log.reported ++ w.reportedBy _ = log.heard ++ reports.queue ∧
            log.dropped ++ w.droppedBy _ = []
          rw [hqueue, hreported, hdropped, List.append_assoc]
          cases accepted with
          | true => exact ⟨rfl, rfl⟩
          | false => exact ⟨rfl, hnone (hsame ▸ hopen) rfl⟩
      | took hw | workerFinished hw | probed hw | workerTorn hw | emitted hw
      | workerTurnedAway hw =>
          rw [PoolLog.note_worker hw]
          show log.reported ++ [] = _ ∧ log.dropped ++ [] = []
          rw [List.append_nil, List.append_nil]
          exact hheard hopen
  | pool hstep =>
      cases hstep with
      | poolNoted | poolEnded => exact hheard hopen
  | reportTaken hqueue =>
      obtain ⟨hreported, hdropped⟩ := hheard hopen
      refine ⟨?_, hdropped⟩
      show log.reported = (log.heard ++ s.reports.queue.head?.toList) ++ _
      rw [hreported, hqueue, List.append_assoc]
      rfl
  | reportsClosed => cases hopen
  | _ => exact hheard hopen

end Counting

section Runs

variable {concurrency targets outcomes reports : Nat} {moves : List PoolMove}

/-- **Wherever a run leads,** a pool does what it does, as long as its outcomes are
taken. -/
theorem serves_of_run
    (h : Run tended (crew concurrency targets outcomes reports, .empty) moves (s, log)) :
    s.Keeps ∧ (s.outcomes.isOpen → s.Serves log) := by
  refine h.invariant (P := fun now =>
    now.1.Keeps ∧ (now.1.outcomes.isOpen → now.1.Serves now.2))
    ⟨keeps_crew _ _ _ _, fun _ => serves_crew _ _ _ _⟩ ?_
  intro now m next hnow hstep
  obtain ⟨hstep, hlog⟩ := noting_eq_some.1 hstep
  have hmoves := tends_of_tend hstep
  rw [hlog]
  refine ⟨hnow.1.step hmoves, fun hopen => ?_⟩
  exact (hnow.2 (hmoves.outcomes_open hopen)).step hnow.1 hmoves hopen

/-- **Wherever a run leads,** what the workers counted is accounted for. -/
theorem counts_of_run
    (h : Run tended (crew concurrency targets outcomes reports, .empty) moves (s, log)) :
    s.Counts log := by
  refine h.invariant (P := fun now => now.1.Counts now.2) (counts_crew _ _ _ _) ?_
  intro now m next hnow hstep
  obtain ⟨hstep, hlog⟩ := noting_eq_some.1 hstep
  have hmoves := tends_of_tend hstep
  rw [hlog]
  exact ⟨hnow.counted_step hmoves, hnow.heard_step hmoves⟩

end Runs

section Ended

variable {concurrency targets outcomes reports : Nat} {moves : List PoolMove}

/-- What each worker took comes to an outcome, in the order in which it was taken; or
the worker was lost with it, or holds it. -/
theorem Serves.taken_eq (h : s.Serves log) (i : Nat) :
    (log.work.worker i).taken.map (·.id) = (log.work.worker i).emitted.map (·.target) ++
      (log.lostOf i).map (·.id) ++ (s.workers[i]?).elim [] (·.held) := by
  cases hw : s.workers[i]? with
  | none =>
      obtain ⟨hempty, hlost⟩ := h.strangers i hw
      rw [hempty, hlost]
      rfl
  | some w => exact (h.workers i w hw).taken_eq

/-- What all workers took comes to outcomes, whichever worker came first. -/
theorem Serves.taken_perm (h : s.Serves log) :
    (log.work.taken.map (·.2.id)).Perm (log.work.emitted.map (·.2.target) ++
      log.lost.map (·.2.id) ++ s.workers.flatMap (·.held)) := by
  have heach : ∀ i, Chronicle.doneBy i (log.work.taken.map fun d => (d.1, d.2.id)) =
      Chronicle.doneBy i ((log.work.emitted.map fun d => (d.1, d.2.target)) ++
        log.lost.map fun d => (d.1, d.2.id)) ++ (s.workers[i]?).elim [] (·.held) := by
    intro i
    rw [Chronicle.doneBy_append, Chronicle.doneBy_map, Chronicle.doneBy_map, Chronicle.doneBy_map]
    exact h.taken_eq i
  have hperm := Chronicle.perm_of_each s.workers (·.held) _ _
    (fun i w hw => by simpa [hw] using heach i) (fun i hnone => by simpa [hnone] using heach i)
  rw [List.map_append, List.map_map, List.map_map, List.map_map] at hperm
  exact hperm

/-- The outcomes that all workers made they handed on, but for those they are about to. -/
theorem Serves.probed_perm (h : s.Serves log) :
    (log.work.probed.map (·.2)).Perm
      (log.work.emitted.map (·.2) ++ s.workers.flatMap (·.toEmit)) := by
  refine Chronicle.perm_of_each s.workers (·.toEmit) _ _
    (fun i w hw => (h.workers i w hw).probed_eq) fun i hnone => ?_
  have hempty := (h.strangers i hnone).1
  exact (congrArg (·.probed) hempty).trans (congrArg (·.emitted) hempty).symm

/-- A worker was lost with one target, or it was not torn down. -/
theorem Serves.length_lostOf (h : s.Serves log) {i : Nat} {w : Worker}
    (hw : s.workers[i]? = some w) :
    (log.lostOf i).length = if w.phase = .tornDown then 1 else 0 := by
  have hanswers := h.workers i w hw
  generalize log.lostOf i = lost at hanswers
  cases hanswers with
  | whole hphase _ => rw [if_neg hphase]; rfl
  | torn hphase _ => rw [if_pos hphase]; rfl

/-- Nothing was lost if no worker was torn down. -/
theorem Serves.lost_eq_nil (h : s.Serves log) (hwhole : ∀ w ∈ s.workers, w.phase ≠ .tornDown) :
    log.lost = [] := by
  suffices hperm : log.lost.Perm [] from hperm.eq_nil
  refine Chronicle.perm_of_doneBy fun i => ?_
  show (log.lostOf i).Perm []
  cases hw : s.workers[i]? with
  | none => rw [(h.strangers i hw).2]
  | some w =>
      rw [(h.workers i w hw).lost_eq_nil_iff.2 (hwhole w (List.mem_of_getElem? hw))]

/-- When all workers are gone, all targets have come to an outcome or were lost. -/
theorem Serves.settled (h : s.Serves log) (hgone : ∀ w ∈ s.workers, w.isGone) :
    (log.work.taken.map (·.2.id)).Perm
        (log.work.emitted.map (·.2.target) ++ log.lost.map (·.2.id)) ∧
      (log.work.probed.map (·.2)).Perm (log.work.emitted.map (·.2)) := by
  have htaken := h.taken_perm
  have hprobed := h.probed_perm
  have hheld : s.workers.flatMap (·.held) = [] :=
    List.flatMap_eq_nil_iff.2 fun w hw => (Worker.held_of_isGone (hgone w hw)).1
  have htoEmit : s.workers.flatMap (·.toEmit) = [] :=
    List.flatMap_eq_nil_iff.2 fun w hw => (Worker.held_of_isGone (hgone w hw)).2
  rw [hheld, List.append_nil] at htaken
  rw [htoEmit, List.append_nil] at hprobed
  exact ⟨htaken, hprobed⟩

/-- How a pool has ended: well, unless one of its workers was torn down. -/
theorem Keeps.result_eq (h : s.Keeps) {result : Except PipelineError Unit}
    (hresult : s.result? .probe = some result) :
    s.pool.hasEnded ∧ (∀ w ∈ s.workers, w.isGone) ∧
      (result = .ok () ↔ ∀ w ∈ s.workers, w.phase ≠ .tornDown) ∧
      (result = .ok () ∨ ∃ reason, result = .error (.aborted .probe reason)) := by
  obtain ⟨hended, rfl⟩ : s.pool.hasEnded ∧ s.pool.result = result := by
    simpa [System.result?] using hresult
  have hall := h.pool.all_gone (h.pool.ended hended)
  refine ⟨hended, fun w hw => (hall w hw).1, ?_, ?_⟩
  · unfold Pool.result
    cases htear : s.pool.sawTear with
    | true =>
        obtain ⟨w, hw, htorn⟩ := h.tear htear
        exact ⟨(by cases ·), fun hwhole => absurd htorn (hwhole w hw)⟩
    | false =>
        refine ⟨fun _ w hw htorn => ?_, fun _ => rfl⟩
        rw [(hall w hw).2 htorn] at htear
        cases htear
  · unfold Pool.result
    split
    · exact .inr ⟨_, rfl⟩
    · exact .inl rfl

/-- When a pool has ended and no worker was torn down, all that was fed to it was taken. -/
theorem Serves.fed_eq (h : s.Serves log) (hkeeps : s.Keeps) (hended : s.pool.hasEnded)
    (hwhole : ∀ w ∈ s.workers, w.phase ≠ .tornDown) :
    s.targetsFinished ∧ log.fed = log.work.taken.map (·.2) := by
  have hlost := h.lost_eq_nil hwhole
  have hgone := fun w hw => (hkeeps.pool.all_gone (hkeeps.pool.ended hended) w hw).1
  obtain ⟨left, hfed, hleft⟩ := h.fed
  rw [hleft (.inr hlost), hkeeps.targets.queue hended, List.append_nil] at hfed
  exact ⟨h.targetsFinished hkeeps hlost hgone, hfed⟩

/-- What was counted by workers that have ended is in the reports. -/
theorem Counts.reported_eq (h : s.Counts log) (hkeeps : s.Keeps)
    (hended : ∀ w ∈ s.workers, w.phase = .ended) :
    Totals.sum (log.reported ++ log.dropped) =
      (Report.probed (.ofOutcomes (log.work.probed.map (·.2)))).totals := by
  have hpending : Totals.sum (s.workers.map (·.pending)) = .zero := by
    refine Totals.sum_map_eq_zero ?_
    intro w hw
    exact hkeeps.cleared w hw (hended w hw)
  rw [← h.counted, hpending, Totals.add_zero]

/-- **A pool answers each target it was fed.**  As long as its outcomes are taken, what
each of its workers took are the targets of the outcomes it handed on, in the same
order, the one it was torn down with, if it was, and the one it holds; the outcomes go
to whoever takes them; and a worker stops only when there will be no more targets.

When the pool has ended, all workers are gone, and each target taken has come to one
outcome or was lost with its worker.  It has ended well if none of them was torn down,
and then it has taken all it was fed and their reports say how many outcomes there
were, and of which kind; else it says that it was aborted. -/
theorem pool_answers_each_target
    (hrun : Run tended (crew concurrency targets outcomes reports, .empty) moves (s, log))
    (hopen : s.outcomes.isOpen) :
    ((∀ i, (log.work.worker i).taken.map (·.id) = (log.work.worker i).emitted.map (·.target) ++
          (log.lostOf i).map (·.id) ++ (s.workers[i]?).elim [] (·.held)) ∧
      (∀ i w, s.workers[i]? = some w →
        (log.lostOf i).length = if w.phase = .tornDown then 1 else 0) ∧
      (log.work.taken.map (·.2.id)).Perm (log.work.emitted.map (·.2.target) ++
        log.lost.map (·.2.id) ++ s.workers.flatMap (·.held)) ∧
      log.work.emitted.map (·.2) = log.delivered ++ s.outcomes.queue ∧
      ∀ w ∈ s.workers, w.isDone → s.loader.isGone ∧ s.targets.queue = []) ∧
    ∀ result, s.result? .probe = some result →
      (∀ w ∈ s.workers, w.isGone) ∧
      (log.work.taken.map (·.2.id)).Perm
        (log.work.emitted.map (·.2.target) ++ log.lost.map (·.2.id)) ∧
      (result = .ok () ↔ ∀ w ∈ s.workers, w.phase ≠ .tornDown) ∧
      (result = .ok () ∨ ∃ reason, result = .error (.aborted .probe reason)) ∧
      ((∀ w ∈ s.workers, w.phase ≠ .tornDown) →
        s.loader.isGone ∧ log.lost = [] ∧ log.fed = log.work.taken.map (·.2) ∧
        (Totals.sum (log.reported ++ log.dropped)).probed = log.work.taken.length ∧
        (Totals.sum (log.reported ++ log.dropped)).succeeded =
          (log.work.emitted.map (·.2)).countP (·.isSuccess) ∧
        (Totals.sum (log.reported ++ log.dropped)).failed =
          (log.work.emitted.map (·.2)).countP (¬ ·.isSuccess) ∧
        (s.reports.isOpen → log.reported = log.heard ++ s.reports.queue ∧ log.dropped = [])) := by
  obtain ⟨hkeeps, hserves⟩ := serves_of_run hrun
  have hserves := hserves hopen
  have hcounts := counts_of_run hrun
  refine ⟨⟨hserves.taken_eq, fun i w hw => hserves.length_lostOf hw, hserves.taken_perm,
    hserves.outcomes, ?_⟩, ?_⟩
  · intro w hw hdone
    simpa [targetsFinished] using hserves.finished w hw hdone
  · intro result hresult
    obtain ⟨hended, hgone, hwell, hhow⟩ := hkeeps.result_eq hresult
    obtain ⟨htaken, hprobed⟩ := hserves.settled hgone
    refine ⟨hgone, htaken, hwell, hhow, fun hwhole => ?_⟩
    obtain ⟨hfinished, hfed⟩ := hserves.fed_eq hkeeps hended hwhole
    have hlost := hserves.lost_eq_nil hwhole
    have hphases : ∀ w ∈ s.workers, w.phase = .ended := by
      intro w hw
      simpa [Worker.isGone, hwhole w hw] using hgone w hw
    obtain ⟨hcount, hsucceeded, hfailed, _⟩ :=
      Counters.zero.observeAll_eq (log.work.probed.map (·.2))
    have hlength : log.work.taken.length = (log.work.probed.map (·.2)).length := by
      have htaken := htaken.length_eq
      have hprobed := hprobed.length_eq
      simp only [hlost, List.length_append, List.length_map, List.length_nil] at htaken hprobed ⊢
      omega
    rw [hcounts.reported_eq hkeeps hphases, ← hprobed.countP_eq, ← hprobed.countP_eq, hlength]
    refine ⟨(Bool.and_eq_true_iff.1 hfinished).1, hlost, hfed, ?_, ?_, ?_, hcounts.heard⟩
    · exact (Nat.zero_add _).trans (hcount.trans (Nat.zero_add _))
    · exact (Nat.zero_add _).trans (hsucceeded.trans (Nat.zero_add _))
    · exact (Nat.zero_add _).trans (hfailed.trans (Nat.zero_add _))

/-- Two workers, twice.  One of them is torn down by its target, and the other one
answers its own; then both answer, the second one first, with a success and a failure. -/
theorem pool_answers_each_target_torn_and_whole :
    (∃ (moves : List PoolMove) (s : System) (log : PoolLog) (reason : String),
      Run tended (crew 2 1 1 1, .empty) moves (s, log) ∧ s.outcomes.isOpen ∧
      log.work.taken.length = 2 ∧ log.work.emitted.length = 1 ∧ log.lost.length = 1 ∧
      (log.work.taken.map (·.2.id)).Perm
        (log.work.emitted.map (·.2.target) ++ log.lost.map (·.2.id)) ∧
      s.result? .probe = some (.error (.aborted .probe reason))) ∧
    ∃ (moves : List PoolMove) (s : System) (log : PoolLog),
      Run tended (crew 2 1 1 1, .empty) moves (s, log) ∧ s.outcomes.isOpen ∧
      log.work.emitted.map (·.1) = [1, 0] ∧ s.result? .probe = some (.ok ()) ∧
      log.fed = log.work.taken.map (·.2) ∧
      (Totals.sum (log.reported ++ log.dropped)).probed = 2 ∧
      (Totals.sum (log.reported ++ log.dropped)).succeeded = 1 ∧
      (Totals.sum (log.reported ++ log.dropped)).failed = 1 := by
  let t : Target := default
  let u : Target := { t with id := ⟨List.replicate 32 1, rfl⟩ }
  let good : Outcome := ⟨t.id, default, 7, none⟩
  let bad : Outcome := ⟨u.id, default, 7, some ⟨.fatal, "refused"⟩⟩
  let taking : List PoolMove :=
    [.fed t, .worker 0 (.took t), .fed u, .left, .worker 1 (.took u), .worker 0 (.probed good)]
  let torn : List PoolMove := taking ++ [.worker 1 .tornDown, .worker 0 .emitted,
    .worker 0 .finished, .worker 0 (.reported true), .pool (.noted 1), .pool (.noted 0),
    .pool .ended]
  let whole : List PoolMove := taking ++ [.worker 1 (.probed bad), .worker 1 .emitted,
    .outcomeTaken, .worker 0 .emitted, .worker 0 .finished, .worker 0 (.reported true),
    .worker 1 .finished, .reportTaken, .worker 1 (.reported true), .pool (.noted 0),
    .pool (.noted 1), .pool .ended]
  have htorn : (torn.foldlM tended (crew 2 1 1 1, .empty)).any fun now =>
      now.1.outcomes.isOpen ∧ now.1.pool.hasEnded ∧ now.2.work.taken.length = 2 ∧
        now.2.work.emitted.length = 1 ∧ now.2.lost.length = 1 ∧
        ∃ w ∈ now.1.workers, w.phase = .tornDown := by decide
  have hwhole : (whole.foldlM tended (crew 2 1 1 1, .empty)).any fun now =>
      now.1.outcomes.isOpen ∧ now.1.pool.hasEnded ∧ now.2.work.taken.length = 2 ∧
        now.2.work.emitted.map (·.1) = [1, 0] ∧
        (now.2.work.emitted.map (·.2)).countP (·.isSuccess) = 1 ∧
        (now.2.work.emitted.map (·.2)).countP (¬ ·.isSuccess) = 1 ∧
        ∀ w ∈ now.1.workers, w.phase ≠ .tornDown := by decide
  obtain ⟨⟨s, log⟩, hrun, htorn⟩ := Run.exists_of_any htorn
  obtain ⟨⟨s', log'⟩, hrun', hwhole⟩ := Run.exists_of_any hwhole
  obtain ⟨hopen, hended, htaken, hemitted, hlost, w, hw, hphase⟩ := of_decide_eq_true htorn
  obtain ⟨hopen', hended', htaken', horder, hgood, hbad, hphases⟩ := of_decide_eq_true hwhole
  have hresult : s.result? .probe = some s.pool.result := if_pos hended
  have hresult' : s'.result? .probe = some s'.pool.result := if_pos hended'
  obtain ⟨_, hperm, hwell, hhow, _⟩ := (pool_answers_each_target hrun hopen).2 _ hresult
  obtain ⟨_, _, hwell', _, hcounts⟩ := (pool_answers_each_target hrun' hopen').2 _ hresult'
  obtain ⟨_, _, hfed, hprobed, hsucceeded, hfailed, _⟩ := hcounts hphases
  rcases hhow with hok | ⟨reason, haborted⟩
  · exact absurd hphase (hwell.1 hok w hw)
  · exact ⟨⟨torn, s, log, reason, hrun, hopen, htaken, hemitted, hlost, hperm,
        hresult.trans (congrArg some haborted)⟩,
      whole, s', log', hrun', hopen', horder, hresult'.trans (congrArg some (hwell'.2 hphases)),
      hfed, hprobed.trans htaken', hsucceeded.trans hgood, hfailed.trans hbad⟩

end Ended

end System

end PeerWatch
