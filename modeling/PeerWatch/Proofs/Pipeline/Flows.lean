import PeerWatch.Proofs.Pipeline.Verdicts

/-!
# What flows through the pipeline

What is put into a channel is taken out in the same order, and what was not yet
taken out is still in it, unless the channel was closed with something in it.
That happens to the targets only when a worker was torn down or turned away,
and to the outcomes only when the recorder failed or could not begin: in any
other pipeline, whatever happens in whatever order, each target that was handed
on is with a worker or still to be taken, and each outcome is with the recorder
or still to be received.

* `System.IsUnharmed` — no worker was torn down and the recorder has not failed;
* `System.Flows`, `System.Flows.step` — what one move keeps;
* `System.flows_of_run`, `System.outcomes_of_run`, `System.hands_of_run`,
  `System.partitions_of_run` — what a whole run keeps.
-/

namespace PeerWatch

namespace Recorder

variable {r r' : Recorder} {e : RecorderEvent}

/-- A recorder that has not failed had not failed before. -/
theorem Moves.failure_eq_none (h : r.Moves e r') (hnone : r'.failure = none) :
    r.failure = none := by
  cases h with
  | idled hphase hbuffer accepted => exact (afterOffer_eq r accepted).2.2.2.symm.trans hnone
  | offered hphase accepted => exact (afterOffer_eq r accepted).2.2.2.symm.trans hnone
  | commitFailed hphase e => cases hnone
  | _ => exact hnone

/-- A recorder that is gone and was neither torn down nor failed has heard all. -/
theorem hasHeardAll_of_gone (hgone : r.isGone) (htorn : r.phase ≠ .tornDown)
    (hnone : r.failure = none) : r.hasHeardAll := by
  have hended : r.phase = .ended := by simpa [isGone, htorn] using hgone
  simp [hasHeardAll, hended, hnone]

end Recorder

namespace System

variable {s s' : System} {m : Move} {log : Chronicle}

/-- A recorder that began, if it has, and did not fail, was so before. -/
theorem Moves.recorder_unharmed (h : s.Moves m s') (hphase : s'.recorder.phase ≠ .tornDown)
    (hunfailed : s'.recorder.failure = none) :
    s.recorder.phase ≠ .tornDown ∧ s.recorder.failure = none := by
  refine ⟨fun htorn => ?_, ?_⟩
  · have hgone : s.recorder.isGone := by simp [Recorder.isGone, htorn]
    rw [h.recorder_gone hgone] at hphase
    exact hphase htorn
  · rcases h.recorder .empty with ⟨hsame, _⟩ | ⟨e, _, hmoves, _⟩
    · rw [← hsame]
      exact hunfailed
    · exact hmoves.failure_eq_none hunfailed

/-- No worker was torn down, and the recorder began, if it has, and did not fail. -/
structure IsUnharmed (s : System) : Prop where
  workers : ∀ w ∈ s.workers, w.phase ≠ .tornDown
  recorder : s.recorder.phase ≠ .tornDown
  unfailed : s.recorder.failure = none

/-- Harm is not undone. -/
theorem Moves.unharmed (h : s.Moves m s') (hunharmed : s'.IsUnharmed) : s.IsUnharmed where
  workers w hw htorn := by
    obtain ⟨w', hw', htorn'⟩ := h.torn ⟨w, hw, htorn⟩
    exact hunharmed.workers w' hw' htorn'
  recorder := (h.recorder_unharmed hunharmed.recorder hunharmed.unfailed).1
  unfailed := (h.recorder_unharmed hunharmed.recorder hunharmed.unfailed).2

/-- **What is on its way.**  Each worker made one outcome of each target it took and
handed it on, but for what it has in hand; and what was put into a channel was
taken out or is in it. -/
structure Flows (s : System) (log : Chronicle) : Prop where
  workers : ∀ (i : Nat) (w : Worker), s.workers[i]? = some w → w.Handles (log.worker i)
  strangers : ∀ i : Nat, s.workers[i]? = none → log.worker i = .empty
  targets : log.loader.handed = log.taken.map (·.2) ++ s.targets.queue
  outcomes : log.emitted.map (·.2) = log.recorder.received ++ s.outcomes.queue

theorem flows_start (settings : Settings) : (start settings).Flows .empty where
  workers i w hw := by
    obtain rfl := List.eq_of_mem_replicate (List.mem_of_getElem? hw)
    exact Worker.handles_fresh
  strangers _ _ := rfl
  targets := rfl
  outcomes := rfl

section Steps

/-- Of an unharmed pipeline the recorder is gone only when there are no more
outcomes. -/
theorem Orderly.outcomesFinished_of_closed (h : s.Orderly) (hunharmed : s.IsUnharmed)
    (hgone : s.recorder.isGone) : s.outcomesFinished :=
  h.recorder (Recorder.hasHeardAll_of_gone hgone hunharmed.recorder hunharmed.unfailed)

/-- In an unharmed pipeline all workers are gone only when there are no more targets. -/
theorem Orderly.targetsFinished_of_gone (h : s.Orderly) (hunharmed : s.IsUnharmed)
    (hgone : ∀ w ∈ s.workers, w.isGone) : s.targetsFinished := by
  obtain ⟨w, hw⟩ := List.exists_mem_of_ne_nil _ h.staffed
  have hdone : w.isDone := by
    have hgone := hgone w hw
    simp only [Worker.isGone, hunharmed.workers w hw, or_false, decide_eq_true_eq] at hgone
    simp [Worker.isDone, hgone]
  rcases h.workers w hw hdone with hfinished | ⟨hrecorder, hheard⟩
  · exact hfinished
  · rw [Recorder.hasHeardAll_of_gone hrecorder hunharmed.recorder hunharmed.unfailed] at hheard
    cases hheard

/-- No worker of an unharmed pipeline is turned away. -/
theorem Orderly.not_turnedAway (h : s.Orderly) (hunharmed : s.IsUnharmed) {i : Nat} :
    ¬ s.Moves (.worker i .turnedAway) s' := by
  intro hmoves
  cases hmoves with
  | workerTurnedAway hw hworker hclosed =>
      have hfinished := h.outcomesFinished_of_closed hunharmed (h.outcomes.gone hclosed)
      have hgone := (Bool.and_eq_true_iff.1 hfinished).1
      rw [not_workersGone hw hworker] at hgone
      cases hgone

/-- After a move a worker has handled what it took. -/
theorem Flows.worker_step (h : s.Flows log) (ho : s.Orderly) (hmoves : s.Moves m s')
    (hunharmed : s'.IsUnharmed) {i : Nat} {w' : Worker} (hw' : s'.workers[i]? = some w') :
    w'.Handles ((log.note s m).worker i) := by
  rcases hmoves.worker log i with ⟨hsame, hlog⟩ | ⟨w, v, e, rfl, hw, hv, hworker, hlog⟩
  · rw [hlog]
    rw [hsame] at hw'
    exact h.workers i w' hw'
  · obtain rfl : w' = v := Option.some.inj (hw'.symm.trans hv)
    rw [hlog]
    refine (h.workers i w hw).step hworker ?_ ?_
    · rintro rfl
      cases hworker
      exact hunharmed.workers _ (List.mem_of_getElem? hv) rfl
    · rintro rfl
      exact ho.not_turnedAway (hmoves.unharmed hunharmed) hmoves

/-- After a move the targets handed on are those taken and those in the channel. -/
theorem Flows.targets_step (h : s.Flows log) (ho : s.Orderly) (hmoves : s.Moves m s')
    (hunharmed : s'.IsUnharmed) :
    (log.note s m).loader.handed = (log.note s m).taken.map (·.2) ++ s'.targets.queue := by
  have hbefore := hmoves.unharmed hunharmed
  have htargets := h.targets
  cases hmoves with
  | @handed _ t h ht hroom =>
      show log.loader.handed ++ s.loader.next?.toList = _ ++ (s.targets.queue ++ [t])
      rw [ht, htargets, List.append_assoc]
      rfl
  | @took i w w' t rest hw h hqueue =>
      rw [Chronicle.note_worker hw]
      show log.loader.handed = (log.taken ++ [(i, t)]).map (·.2) ++ rest
      rw [htargets, hqueue, List.map_append, List.append_assoc]
      rfl
  | poolEnded hpool =>
      have hempty : s.targets.queue = [] := by
        cases hpool with
        | ended hall _ =>
            have hgone := fun w hw => (ho.pool.all_gone hall w hw).1
            have hfinished := ho.targetsFinished_of_gone hbefore hgone
            exact List.isEmpty_iff.1 (Bool.and_eq_true_iff.1 hfinished).2
      rw [hempty] at htargets
      exact htargets
  | workerFinished hw | probed hw | workerTorn hw | emitted hw | workerTurnedAway hw
  | workerOffered hw | workerReported hw =>
      rw [Chronicle.note_worker hw]
      exact htargets
  | _ => exact htargets

/-- What was handed on is received or to be received, unless the recorder is harmed. -/
theorem Moves.outcomes_kept (hmoves : s.Moves m s') (ho : s.Orderly)
    (hphase : s'.recorder.phase ≠ .tornDown) (hunfailed : s'.recorder.failure = none)
    (houtcomes : log.emitted.map (·.2) = log.recorder.received ++ s.outcomes.queue) :
    (log.note s m).emitted.map (·.2) = (log.note s m).recorder.received ++ s'.outcomes.queue := by
  have hbefore := (hmoves.recorder_unharmed hphase hunfailed).2
  cases hmoves with
  | @emitted i w w' o hw hworker hemitting hroom =>
      rw [Chronicle.note_worker hw]
      show (log.emitted ++ w.toEmit.map fun o => (i, o)).map (·.2) =
        log.recorder.received ++ (s.outcomes.queue ++ [o])
      rw [Worker.toEmit, hemitting, List.map_append, houtcomes, List.append_assoc]
      rfl
  | received h hqueue =>
      show log.emitted.map (·.2) = (log.recorder.note s.recorder (.received _)).received ++ _
      rw [Recorder.received_received, houtcomes, hqueue, List.append_assoc]
      rfl
  | ticked h =>
      show log.emitted.map (·.2) = (log.recorder.note s.recorder .ticked).received ++ _
      rw [Recorder.received_ticked]
      exact houtcomes
  | @idled _ accepted _ h hreports =>
      show log.emitted.map (·.2) = (log.recorder.note s.recorder (.idled accepted)).received ++ _
      rw [Recorder.received_idled]
      exact houtcomes
  | recorderReported hrecorder hreports =>
      have hempty : s.outcomes.queue = [] := by
        cases hrecorder with
        | reported hreporting accepted =>
            have hheard : s.recorder.hasHeardAll := by
              simp [Recorder.hasHeardAll, hreporting, hbefore]
            exact List.isEmpty_iff.1 (Bool.and_eq_true_iff.1 (ho.recorder hheard)).2
      rw [hempty] at houtcomes
      exact houtcomes
  | recorderTorn hrecorder =>
      cases hrecorder
      exact absurd rfl hphase
  | took hw | workerFinished hw | probed hw | workerTorn hw | workerTurnedAway hw
  | workerOffered hw | workerReported hw =>
      rw [Chronicle.note_worker hw]
      exact houtcomes
  | _ => exact houtcomes

/-- **One move** loses nothing, unless it harms. -/
theorem Flows.step (h : s.Flows log) (ho : s.Orderly) (hmoves : s.Moves m s')
    (hunharmed : s'.IsUnharmed) : s'.Flows (log.note s m) where
  workers i w' hw' := h.worker_step ho hmoves hunharmed hw'
  strangers i hnone := by
    rcases hmoves.worker log i with ⟨hsame, hlog⟩ | ⟨w, w', e, _, _, hw', _, _⟩
    · rw [hlog]
      rw [hsame] at hnone
      exact h.strangers i hnone
    · rw [hw'] at hnone
      cases hnone
  targets := h.targets_step ho hmoves hunharmed
  outcomes := hmoves.outcomes_kept ho hunharmed.recorder hunharmed.unfailed h.outcomes

end Steps

section Runs

variable {settings : Settings} {moves : List Move}

/-- **Wherever a run leads,** nothing was lost, if there was no harm. -/
theorem flows_of_run (h : Run chronicled (start settings, .empty) moves (s, log))
    (hunharmed : s.IsUnharmed) : s.Flows log := by
  refine (h.invariant (P := fun now => now.1.Orderly ∧ (now.1.IsUnharmed → now.1.Flows now.2))
    ⟨orderly_start settings, fun _ => flows_start settings⟩ ?_).2 hunharmed
  intro now m next hnow hstep
  obtain ⟨hstep, hlog⟩ := noting_eq_some.1 hstep
  have hmoves := moves_of_step hstep
  refine ⟨hnow.1.step hmoves, fun hunharmed => ?_⟩
  rw [hlog]
  exact (hnow.2 (hmoves.unharmed hunharmed)).step hnow.1 hmoves hunharmed

/-- Whatever becomes of the workers, no outcome was lost that was handed on, if the
recorder is unharmed. -/
theorem outcomes_of_run (h : Run chronicled (start settings, .empty) moves (s, log))
    (hphase : s.recorder.phase ≠ .tornDown) (hunfailed : s.recorder.failure = none) :
    log.emitted.map (·.2) = log.recorder.received ++ s.outcomes.queue := by
  refine (h.invariant (P := fun now => now.1.Orderly ∧
      (now.1.recorder.phase ≠ .tornDown → now.1.recorder.failure = none →
        now.2.emitted.map (·.2) = now.2.recorder.received ++ now.1.outcomes.queue))
    ⟨orderly_start settings, fun _ _ => rfl⟩ ?_).2 hphase hunfailed
  intro now m next hnow hstep
  obtain ⟨hstep, hlog⟩ := noting_eq_some.1 hstep
  have hmoves := moves_of_step hstep
  refine ⟨hnow.1.step hmoves, fun hphase hunfailed => ?_⟩
  obtain ⟨hphase', hunfailed'⟩ := hmoves.recorder_unharmed hphase hunfailed
  rw [hlog]
  exact hmoves.outcomes_kept hnow.1 hphase hunfailed (hnow.2 hphase' hunfailed')

/-- What the loader of a pipeline leaves behind. -/
theorem hands_of_run (h : Run chronicled (start settings, .empty) moves (s, log)) :
    s.loader.Hands settings.loader.batchSize log.loader := by
  refine h.invariant (P := fun now => now.1.loader.Hands settings.loader.batchSize now.2.loader)
    (Loader.hands_fresh _) ?_
  intro now m next hnow hstep
  obtain ⟨hstep, hlog⟩ := noting_eq_some.1 hstep
  rw [hlog]
  rcases (moves_of_step hstep).loader now.2 with ⟨hsame, hnote⟩ | ⟨e, _, hmoves, hnote⟩
  · rw [hsame, hnote]
    exact hnow
  · rw [hnote]
    exact hnow.step hmoves

/-- What the recorder of a pipeline commits. -/
theorem partitions_of_run (h : Run chronicled (start settings, .empty) moves (s, log)) :
    s.recorder.Partitions (max settings.recorder.chunkSize 1) log.recorder := by
  refine h.invariant (P := fun now =>
    now.1.recorder.Partitions (max settings.recorder.chunkSize 1) now.2.recorder)
    (Recorder.partitions_fresh _) ?_
  intro now m next hnow hstep
  obtain ⟨hstep, hlog⟩ := noting_eq_some.1 hstep
  rw [hlog]
  rcases (moves_of_step hstep).recorder now.2 with ⟨hsame, hnote⟩ | ⟨e, _, hmoves, hnote⟩
  · rw [hsame, hnote]
    exact hnow
  · rw [hnote]
    exact hnow.step (Recorder.one_le_chunk settings.recorder) hmoves

end Runs

end System

end PeerWatch
