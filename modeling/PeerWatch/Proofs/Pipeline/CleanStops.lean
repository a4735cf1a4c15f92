import PeerWatch.Proofs.Pipeline.Crews
import PeerWatch.Proofs.Pipeline.Flows
import PeerWatch.Proofs.Pipeline.Tallies

/-!
# A clean stop loses no work

A pipeline that has stopped, whenever it was asked to and in whatever order its
parts did what they did, has made one outcome of each target the loader handed
on, and has committed each outcome once.  Its totals say so, if there is a time
between two summaries; without one the collector cannot begin, the pipeline
stops as well, and nothing is counted.

* `System.IsSettled`, `System.settled_of_stopped` — what a stopped pipeline is;
* `System.stop_loses_nothing` — what it has done, and what its totals are;
* `System.stop_counts_nothing` — a pipeline that stops without a collector.
-/

namespace PeerWatch

/-- A loader that ended well has come to its end. -/
theorem Loader.ended_of_result? {l : Loader} (h : l.result? = some (.ok ())) :
    l.phase = .ended := by
  unfold Loader.result? at h
  split at h
  · next hphase => exact hphase
  · cases h
  · cases h

/-- A recorder that ended well has come to its end and did not fail. -/
theorem Recorder.ended_of_result? {r : Recorder} (h : r.result? = some (.ok ())) :
    r.phase = .ended ∧ r.failure = none := by
  unfold Recorder.result? at h
  split at h
  · next hphase =>
      split at h
      · next hfailure => exact ⟨hphase, hfailure⟩
      · cases h
  · cases h
  · cases h

namespace System

variable {s : System} {log : Chronicle} {settings : Settings} {moves : List Move}

/-- All parts of a pipeline have come to their ends, and none has failed. -/
structure IsSettled (s : System) : Prop where
  loader : s.loader.phase = .ended
  workers : ∀ w ∈ s.workers, w.phase = .ended
  pool : s.pool.hasEnded
  recorder : s.recorder.phase = .ended
  unfailed : s.recorder.failure = none
  collector : s.collector.isGone

/-- In a pipeline that settled nobody was harmed. -/
theorem IsSettled.unharmed (h : s.IsSettled) : s.IsUnharmed where
  workers w hw htorn := by
    rw [h.workers w hw] at htorn
    cases htorn
  recorder := by simp [h.recorder]
  unfailed := h.unfailed

/-- **A pipeline that has stopped** has come to its end in all its parts. -/
theorem settled_of_stopped (h : Run step (start settings) moves s)
    (hstopped : s.supervisor.state = .stopped) : s.IsSettled := by
  obtain ⟨hresults, hgone⟩ := (noted_of_run h).of_stopped hstopped
  have hpool := (orderly_of_run h).pool
  obtain ⟨hended, hresult⟩ : s.pool.hasEnded ∧ s.pool.result = .ok () := by
    simpa [System.result?] using hresults .probe
  have htear : s.pool.sawTear = false := by
    cases htear : s.pool.sawTear with
    | false => rfl
    | true => simp [Pool.result, htear] at hresult
  obtain ⟨hrecorder, hunfailed⟩ := Recorder.ended_of_result? (hresults .recorder)
  refine ⟨Loader.ended_of_result? (hresults .loader), ?_, hended, hrecorder, hunfailed, hgone⟩
  intro w hw
  obtain ⟨hgone, htorn⟩ := hpool.all_gone (hpool.ended hended) w hw
  have hphase : w.phase ≠ .tornDown := fun hphase => by simp [htorn hphase] at htear
  simpa [Worker.isGone, hphase] using hgone

/-- What every worker of a settled pipeline has done: one outcome for each target,
each handed on. -/
theorem IsSettled.worker (h : s.IsSettled) (hflows : s.Flows log) (i : Nat) :
    (log.worker i).taken.map (·.id) = (log.worker i).probed.map (·.target) ∧
      (log.worker i).emitted = (log.worker i).probed := by
  cases hw : s.workers[i]? with
  | none =>
      rw [hflows.strangers i hw]
      exact ⟨rfl, rfl⟩
  | some w =>
      have hended := h.workers w (List.mem_of_getElem? hw)
      obtain ⟨htaken, hprobed⟩ := hflows.workers i w hw
      simp only [Worker.inHand, Worker.toEmit, hended, List.map_nil, List.append_nil]
        at htaken hprobed
      exact ⟨htaken, hprobed.symm⟩

/-- When the recorder has come to its end and did not fail, every outcome that was handed
on is committed. -/
theorem committed_of_ended (horderly : s.Orderly) {chunk : Nat}
    (hpartitions : s.recorder.Partitions chunk log.recorder)
    (houtcomes : log.emitted.map (·.2) = log.recorder.received ++ s.outcomes.queue)
    (hended : s.recorder.phase = .ended) (hunfailed : s.recorder.failure = none) :
    log.emitted.map (·.2) = log.recorder.committed.flatten := by
  have hgone : s.recorder.isGone := by simp [Recorder.isGone, hended]
  have hbuffer := hpartitions.buffer
  rw [Recorder.BufferFits, hended] at hbuffer
  rw [horderly.outcomes.queue hgone, hpartitions.received, hbuffer hunfailed, List.append_nil,
    List.append_nil] at houtcomes
  exact houtcomes

/-- Every target that was handed on was taken, and every outcome committed. -/
theorem IsSettled.flows (h : s.IsSettled) (horderly : s.Orderly) (hflows : s.Flows log)
    {chunk : Nat} (hpartitions : s.recorder.Partitions chunk log.recorder) :
    log.taken.map (·.2) = log.loader.handed ∧
      log.emitted.map (·.2) = log.recorder.committed.flatten := by
  have htargets := hflows.targets
  rw [horderly.targets.queue h.pool, List.append_nil] at htargets
  exact ⟨htargets.symm,
    committed_of_ended horderly hpartitions hflows.outcomes h.recorder h.unfailed⟩

/-- What the totals of a settled pipeline are, if there is a time between two summaries. -/
theorem IsSettled.totals (h : s.IsSettled) (hinterval : 0 < settings.observability.statsInterval)
    (hrun : Run chronicled (start settings, .empty) moves (s, log)) :
    s.collector.totals = log.tally :=
  totals_of_run hinterval hrun h.collector h.loader h.workers h.recorder

/-- **A stop loses nothing.**  When a pipeline has stopped, the targets that the
loader handed on are those that the workers took, each taken by one of them; each
worker made one outcome of each target it took, and handed it on; and the batches
that were committed hold each outcome that was handed on once.  If there is a time
between two summaries, its totals are the targets that the claims gave, the probes,
each of which succeeded or failed, the outcomes and the batches committed; as many
targets as were handed on are probed and recorded, and at most a batch of those
claimed is not. -/
theorem stop_loses_nothing (hrun : Run chronicled (start settings, .empty) moves (s, log))
    (hstopped : s.supervisor.state = .stopped) :
    (log.taken.map (·.2) = log.loader.handed ∧
      (∀ i, (log.worker i).taken.map (·.id) = (log.worker i).probed.map (·.target) ∧
        (log.worker i).emitted = (log.worker i).probed) ∧
      log.emitted.map (·.2) = log.recorder.committed.flatten) ∧
    (0 < settings.observability.statsInterval →
      s.collector.totals.claimed = log.loader.claimed.length ∧
      s.collector.totals.probed = s.collector.totals.succeeded + s.collector.totals.failed ∧
      s.collector.totals.probed = log.loader.handed.length ∧
      s.collector.totals.recorded = log.loader.handed.length ∧
      s.collector.totals.batches = log.recorder.committed.length ∧
      s.collector.totals.unknown ≤ s.collector.totals.failed ∧
      s.collector.totals.probed ≤ s.collector.totals.claimed ∧
      s.collector.totals.claimed - s.collector.totals.probed ≤ settings.loader.batchSize) := by
  have hsettled := settled_of_stopped hrun.unnoted hstopped
  have hflows := flows_of_run hrun hsettled.unharmed
  have hworkers := fun i => hsettled.worker hflows i
  obtain ⟨htargets, houtcomes⟩ :=
    hsettled.flows (orderly_of_run hrun.unnoted) hflows (partitions_of_run hrun)
  refine ⟨⟨htargets, hworkers, houtcomes⟩, fun hinterval => ?_⟩
  -- as many outcomes as targets, for each worker and so for all of them
  have hprobed : log.probed.length = log.loader.handed.length := by
    rw [← htargets, List.length_map]
    refine Chronicle.length_eq_of_doneBy fun i => ?_
    simpa [Chronicle.worker] using congrArg List.length (hworkers i).1.symm
  have hrecorded : log.recorder.committed.flatten.length = log.probed.length := by
    rw [← houtcomes, List.length_map]
    exact Chronicle.length_eq_of_doneBy fun i => congrArg List.length (hworkers i).2
  obtain ⟨left, hclaimed, hleft, _⟩ := (hands_of_run hrun).left
  obtain ⟨hlength, hsplit, hunknown⟩ := Counters.ofOutcomes_eq (log.probed.map (·.2))
  rw [List.length_map, hprobed] at hlength
  rw [hprobed] at hrecorded
  have hbound : log.loader.claimed.length = log.loader.handed.length + left.length := by
    rw [hclaimed, List.length_append]
  rw [hsettled.totals hinterval hrun, log.tally_eq]
  refine ⟨rfl, hsplit, hlength, hrecorded, rfl, hunknown, ?_, ?_⟩
  · show (Counters.ofOutcomes _).probed ≤ log.loader.claimed.length
    omega
  · show log.loader.claimed.length - (Counters.ofOutcomes _).probed ≤ _
    omega

/-- Two targets are claimed; the signal comes when one was handed on, and the other
is left behind. -/
theorem stop_loses_nothing_one_left_behind :
    ∃ (settings : Settings) (moves : List Move) (s : System) (log : Chronicle),
      Run chronicled (start settings, .empty) moves (s, log) ∧
      s.supervisor.verdict? = some .stopped ∧ s.supervisor.state = .stopped ∧
      0 < settings.observability.statsInterval ∧ log.loader.claimed.length = 2 ∧
      log.loader.handed.length = 1 ∧ log.taken.map (·.2) = log.loader.handed ∧
      log.emitted.map (·.2) = log.recorder.committed.flatten ∧
      s.collector.totals.claimed = 2 ∧ s.collector.totals.recorded = 1 ∧
      s.collector.totals.claimed - s.collector.totals.probed ≤ settings.loader.batchSize := by
  let settings : Settings := { probe := { concurrency := 2 } }
  let t : Target := default
  let o : Outcome := ⟨t.id, default, 7, none⟩
  let moves : List Move := [.collector .begun, .recorder .begun, .loader .looked,
    .loader (.claimed [t, t]), .loader (.offered true), .loader .looked, .loader .handed,
    .worker 1 (.took t), .worker 1 (.probed o), .ask, .signal, .loader .signalled,
    .worker 1 .emitted, .recorder (.received o), .recorder .ticked, .recorder .committed,
    .recorder (.offered false), .loader (.reported true), .worker 0 .finished,
    .worker 1 .finished, .worker 0 (.reported true), .worker 1 (.reported true),
    .pool (.noted 1), .pool (.noted 0), .pool .ended, .recorder .finished,
    .recorder (.reported true), .collector (.took (.claimed 2)),
    .collector (.took (.probed ⟨1, 1, 0, 0⟩)), .collector (.took (.committed 1 1)),
    .collector .finished, .supervisor .noted, .supervisor .noted, .supervisor .noted,
    .supervisor .concluded, .supervisor .closed]
  have hchecked : (moves.foldlM chronicled (start settings, .empty)).any fun now =>
      now.1.supervisor.verdict? = some .stopped ∧ now.1.supervisor.state = .stopped ∧
        now.2.loader.claimed.length = 2 ∧ now.2.loader.handed.length = 1 := by decide
  obtain ⟨⟨s, log⟩, hrun, hchecked⟩ := Run.exists_of_any hchecked
  obtain ⟨hverdict, hstopped, hclaimed, hhanded⟩ := of_decide_eq_true hchecked
  have hinterval : 0 < settings.observability.statsInterval := by decide
  obtain ⟨⟨htargets, _, houtcomes⟩, htotals⟩ := stop_loses_nothing hrun hstopped
  obtain ⟨hclaims, _, _, hrecorded, _, _, _, hleft⟩ := htotals hinterval
  exact ⟨settings, moves, s, log, hrun, hverdict, hstopped, hinterval, hclaimed, hhanded, htargets,
    houtcomes, hclaims.trans hclaimed, hrecorded.trans hhanded, hleft⟩

/-- Without a time between two summaries nothing is ever counted. -/
theorem totals_of_no_interval (hinterval : settings.observability.statsInterval = 0)
    (h : Run step (start settings) moves s) : s.collector.totals = .zero := by
  have hkept : s.collector.interval = 0 ∧ s.collector.phase ≠ .collecting ∧
      s.collector.totals = .zero := by
    refine h.invariant (P := fun s => s.collector.interval = 0 ∧
      s.collector.phase ≠ .collecting ∧ s.collector.totals = .zero) ⟨hinterval, (by cases ·), rfl⟩ ?_
    intro s m s' hnow hstep
    rcases (moves_of_step hstep).collector with hsame | ⟨e, _, hmoves⟩
    · rw [hsame]
      exact hnow
    · obtain ⟨hzero, hphase, htotals⟩ := hnow
      generalize s'.collector = c' at hmoves
      cases hmoves with
      | begun _ hpositive =>
          rw [hzero] at hpositive
          cases hpositive
      | tornDown => exact ⟨hzero, by simp, htotals⟩
      | took hcollecting | finished hcollecting => exact absurd hcollecting hphase
  exact hkept.2.2

/-- Such a pipeline stops as well, with its work done and no word of it. -/
theorem stop_counts_nothing :
    ∃ (settings : Settings) (moves : List Move) (s : System) (log : Chronicle),
      Run chronicled (start settings, .empty) moves (s, log) ∧
      s.supervisor.verdict? = some .stopped ∧ log.loader.claimed.length = 1 ∧
      log.loader.handed.length = 1 ∧ log.recorder.committed.length = 1 ∧
      s.collector.totals.claimed ≠ log.loader.claimed.length ∧
      s.collector.totals.probed ≠ log.loader.handed.length ∧
      s.collector.totals.batches ≠ log.recorder.committed.length := by
  let settings : Settings := { observability := { statsInterval := 0 }, probe := { concurrency := 1 } }
  let t : Target := default
  let o : Outcome := ⟨t.id, default, 7, none⟩
  let moves : List Move := [.collector .tornDown, .recorder .begun, .loader .looked,
    .loader (.claimed [t]), .loader (.offered false), .loader .looked, .loader .handed,
    .worker 0 (.took t), .worker 0 (.probed o), .worker 0 .emitted, .recorder (.received o), .ask,
    .signal, .loader .signalled, .loader (.reported false), .worker 0 .finished,
    .worker 0 (.reported false), .pool (.noted 0), .pool .ended, .recorder .finished,
    .recorder .committed, .recorder (.reported false), .supervisor .noted, .supervisor .noted,
    .supervisor .noted, .supervisor .concluded, .supervisor .closed]
  have hchecked : (moves.foldlM chronicled (start settings, .empty)).any fun now =>
      now.1.supervisor.verdict? = some .stopped ∧ now.2.loader.claimed.length = 1 ∧
        now.2.loader.handed.length = 1 ∧ now.2.recorder.committed.length = 1 := by decide
  obtain ⟨⟨s, log⟩, hrun, hchecked⟩ := Run.exists_of_any hchecked
  obtain ⟨hverdict, hclaimed, hhanded, hcommitted⟩ := of_decide_eq_true hchecked
  have hzero : s.collector.totals = .zero := totals_of_no_interval (by rfl) hrun.unnoted
  refine ⟨settings, moves, s, log, hrun, hverdict, hclaimed, hhanded, hcommitted, ?_, ?_, ?_⟩
  · rw [hzero, hclaimed]
    decide
  · rw [hzero, hhanded]
    decide
  · rw [hzero, hcommitted]
    decide

end System

end PeerWatch
