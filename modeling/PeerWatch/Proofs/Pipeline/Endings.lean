import PeerWatch.Proofs.Pipeline.Systems

/-!
# Who ends when

A part of the pipeline that is gone does nothing more, and takes its ends of
the channels with it.  So an ending spreads along the pipeline and is never
taken back: when the loader is gone and its channel is empty, there will be no
more targets; when the workers are gone and theirs is empty, no more outcomes;
and when all three stages are gone, no more reports.

* `Channel.Ends` — a channel is open until its receiver is gone, and empty then;
* `Channel.Fits` — a channel holds no more than it was made for;
* `System.Moves.targetsFinished`, `System.Moves.outcomesFinished` — what has
  ended stays so;
* `System.Orderly`, `System.Orderly.step`, `System.orderly_of_run` — who was gone
  when a part ended.
-/

namespace PeerWatch

namespace Channel

variable {α : Type} {c : Channel α} {isGone : Bool}

/-- A channel is open until its receiver is gone; what it holds then is lost. -/
structure Ends (c : Channel α) (isGone : Bool) : Prop where
  isOpen : c.isOpen = !isGone
  queue : isGone → c.queue = []

theorem ends_ofCapacity (capacity : Nat) : (ofCapacity capacity : Channel α).Ends false :=
  ⟨rfl, fun h => by cases h⟩

theorem ends_close (c : Channel α) : c.close.Ends true := ⟨rfl, fun _ => rfl⟩

/-- There is room only as long as the receiver is there. -/
theorem Ends.not_gone (h : c.Ends isGone) (hroom : 0 < c.room) : isGone = false := by
  have hopen := isOpen_of_room hroom
  rw [h.isOpen] at hopen
  simpa using hopen

/-- A message put into a channel does not end it. -/
theorem Ends.push (h : c.Ends isGone) (hroom : 0 < c.room) (message : α) :
    Ends { c with queue := c.queue ++ [message] } isGone := by
  refine ⟨h.isOpen, ?_⟩
  rw [h.not_gone hroom]
  intro hgone
  cases hgone

/-- A message taken out of a channel does not end it. -/
theorem Ends.pop (h : c.Ends isGone) {message : α} {rest : List α}
    (hqueue : c.queue = message :: rest) : Ends { c with queue := rest } isGone := by
  refine ⟨h.isOpen, ?_⟩
  intro hgone
  have hempty := h.queue hgone
  rw [hqueue] at hempty
  cases hempty

/-- When the channel is closed, its receiver is gone. -/
theorem Ends.gone (h : c.Ends isGone) (hclosed : c.isOpen = false) : isGone := by
  rw [h.isOpen] at hclosed
  simpa using hclosed

variable {capacity : Nat}

/-- A channel holds no more than it was made for. -/
structure Fits (c : Channel α) (capacity : Nat) : Prop where
  size : c.capacity = capacity
  fits : c.queue.length ≤ capacity

theorem fits_ofCapacity (capacity : Nat) : (ofCapacity capacity : Channel α).Fits capacity :=
  ⟨rfl, Nat.zero_le _⟩

theorem Fits.push (h : c.Fits capacity) (hroom : 0 < c.room) (message : α) :
    Fits { c with queue := c.queue ++ [message] } capacity := by
  refine ⟨h.size, ?_⟩
  rw [room, if_pos (isOpen_of_room hroom), h.size] at hroom
  rw [List.length_append, List.length_singleton]
  omega

theorem Fits.pop (h : c.Fits capacity) {message : α} {rest : List α}
    (hqueue : c.queue = message :: rest) : Fits { c with queue := rest } capacity := by
  have hfits := h.fits
  rw [hqueue, List.length_cons] at hfits
  exact ⟨h.size, Nat.le_of_succ_le hfits⟩

theorem Fits.close (h : c.Fits capacity) : c.close.Fits capacity := ⟨h.size, Nat.zero_le _⟩

end Channel

/-- Whether an event is the last one at a recorder. -/
def RecorderEvent.isLast : RecorderEvent → Bool
  | .reported _ | .tornDown => true
  | _ => false

namespace Recorder

variable {r r' : Recorder} {e : RecorderEvent}

/-- A recorder is gone after its last event, and not before. -/
theorem Moves.isGone_eq (h : r.Moves e r') : r'.isGone = e.isLast := by
  cases h with
  | gathered hphase | filled hphase => simp [isGone, hphase, RecorderEvent.isLast]
  | idled hphase hbuffer accepted =>
      rw [isGone, (afterOffer_eq r accepted).2.1, hphase]
      rfl
  | @committed cause hphase => cases cause <;> rfl
  | _ => rfl

/-- Whether a recorder has heard that there will be no more outcomes, and has not
failed. -/
def hasHeardAll (r : Recorder) : Bool :=
  match r.phase with
  | .flushing .close => true
  | .reporting | .ended => r.failure.isNone
  | _ => false

/-- It hears so once, and before it ends without a failure. -/
theorem Moves.hasHeardAll (h : r.Moves e r') (hheard : r'.hasHeardAll) :
    r.hasHeardAll ∨ e = .finished := by
  cases h with
  | begun hphase | tornDown hphase | ticked hphase | offered hphase => cases hheard
  | gathered hphase => simp [Recorder.hasHeardAll, hphase] at hheard
  | filled hphase => simp [Recorder.hasHeardAll] at hheard
  | idled hphase hbuffer accepted =>
      simp [Recorder.hasHeardAll, (afterOffer_eq r accepted).2.1, hphase] at hheard
  | finished | closing => exact .inr rfl
  | @committed cause hphase =>
      cases cause with
      | close =>
          left
          rw [Recorder.hasHeardAll, hphase]
      | full | tick => cases hheard
  | commitFailed hphase e => cases hheard
  | reported hphase accepted =>
      left
      rw [Recorder.hasHeardAll, hphase]
      exact hheard

end Recorder

/-- Whether an event is the last one at a collector. -/
def CollectorEvent.isLast : CollectorEvent → Bool
  | .finished | .tornDown => true
  | _ => false

namespace Collector

variable {c c' : Collector} {e : CollectorEvent}

/-- A collector is gone after its last event, and not before. -/
theorem Moves.isGone_eq (h : c.Moves e c') : c'.isGone = e.isLast := by
  cases h with
  | took hphase r => simp [isGone, hphase, CollectorEvent.isLast]
  | _ => rfl

/-- A collector ends only when there will be no more reports. -/
theorem Moves.finished_of_ended (h : c.Moves e c') (hended : c'.phase = .ended) : e = .finished := by
  cases h with
  | finished => rfl
  | took hphase r =>
      have hended : c.phase = .ended := hended
      rw [hphase] at hended
      cases hended
  | begun | tornDown => cases hended

end Collector

namespace System

variable {s s' : System} {m : Move}

/-- An offered report is put in where there is room, or not at all. -/
theorem offerReport_cases {reports reports' : Channel Report} {pending : Report} {accepted : Bool}
    (h : offerReport reports pending accepted = some reports') :
    reports' = reports ∨
      0 < reports.room ∧ reports' = { reports with queue := reports.queue ++ [pending] } := by
  unfold offerReport at h
  split at h
  · exact .inl (Option.some.inj h).symm
  · exact .inr (Channel.push?_eq_some_iff.1 h)

/-- A last report is put in where there is room, or not at all. -/
theorem lastReport_cases {reports reports' : Channel Report} {pending : Report} {accepted : Bool}
    (h : lastReport reports pending accepted = some reports') :
    reports' = reports ∨
      0 < reports.room ∧ reports' = { reports with queue := reports.queue ++ [pending] } := by
  unfold lastReport at h
  split at h
  · exact .inl (Option.some.inj h).symm
  · split at h
    · exact .inr (Channel.push?_eq_some_iff.1 h)
    · split at h
      · cases h
      · exact .inl (Option.some.inj h).symm

section Endings

/-- A worker that does something was not gone. -/
theorem not_workersGone {i : Nat} {w w' : Worker} {e : WorkerEvent} (hw : s.workers[i]? = some w)
    (h : w.Moves e w') : s.workersGone = false := by
  cases hgone : s.workersGone with
  | false => rfl
  | true =>
      have hw := List.all_eq_true.1 hgone w (List.mem_of_getElem? hw)
      rw [h.not_gone] at hw
      cases hw

/-- A loader that is gone stays so. -/
theorem Moves.loader_gone (h : s.Moves m s') (hgone : s.loader.isGone) : s'.loader = s.loader := by
  rcases h.loader .empty with ⟨hloader, _⟩ | ⟨e, _, hmoves, _⟩
  · exact hloader
  · rw [hmoves.not_gone] at hgone
    cases hgone

/-- A recorder that is gone does nothing more. -/
theorem Moves.recorder_gone (h : s.Moves m s') (hgone : s.recorder.isGone) :
    s'.recorder = s.recorder := by
  rcases h.recorder .empty with ⟨hrecorder, _⟩ | ⟨e, _, hmoves, _⟩
  · exact hrecorder
  · rw [hmoves.not_gone] at hgone
    cases hgone

/-- Workers that are gone do nothing more. -/
theorem Moves.workers_gone (h : s.Moves m s') (hgone : s.workersGone) :
    s'.workers = s.workers := by
  rcases h.workers with hworkers | ⟨i, w, w', e, _, hw, hmoves, _⟩
  · exact hworkers
  · rw [not_workersGone hw hmoves] at hgone
    cases hgone

/-- A worker that was torn down stays so. -/
theorem Moves.torn (h : s.Moves m s') (htorn : ∃ w ∈ s.workers, w.phase = .tornDown) :
    ∃ w ∈ s'.workers, w.phase = .tornDown := by
  obtain ⟨w, hw, htorn⟩ := htorn
  obtain ⟨i, hi⟩ := List.mem_iff_getElem?.1 hw
  rcases h.worker .empty i with ⟨hsame, _⟩ | ⟨v, w', e, _, hv, _, hmoves, _⟩
  · rw [hi] at hsame
    exact ⟨w, List.mem_of_getElem? hsame, htorn⟩
  · obtain rfl : w = v := Option.some.inj (hi.symm.trans hv)
    have hthere := hmoves.not_gone
    simp [Worker.isGone, htorn] at hthere

/-- A pool has seen a tear only if a worker was torn down. -/
theorem Moves.tear (h : s.Moves m s')
    (hseen : s.pool.sawTear → ∃ w ∈ s.workers, w.phase = .tornDown) (htear : s'.pool.sawTear) :
    ∃ w ∈ s'.workers, w.phase = .tornDown := by
  apply h.torn
  rcases h.pool with hsame | ⟨e, _, hpool⟩
  · rw [hsame] at htear
    exact hseen htear
  · rcases hpool.tear htear with htear | htorn
    · exact hseen htear
    · exact htorn

/-- A collector that is gone does nothing more. -/
theorem Moves.collector_gone (h : s.Moves m s') (hgone : s.collector.isGone) :
    s'.collector = s.collector := by
  rcases h.collector with hcollector | ⟨e, _, hmoves⟩
  · exact hcollector
  · rw [hmoves.not_gone] at hgone
    cases hgone

/-- The signal is not taken back. -/
theorem Moves.triggered (h : s.Moves m s') (htriggered : s.shutdown.triggered) :
    s'.shutdown.triggered := by
  cases h with
  | signalled =>
      rw [Shutdown.triggered_receive]
      exact htriggered
  | alarmed | gaveSignal =>
      rw [Shutdown.trigger, if_pos htriggered]
      exact htriggered
  | _ => exact htriggered

/-- When there will be no more targets, that stays so. -/
theorem Moves.targetsFinished (h : s.Moves m s') (hfinished : s.targetsFinished) :
    s'.targetsFinished := by
  obtain ⟨hgone, hempty⟩ := Bool.and_eq_true_iff.1 hfinished
  cases h with
  | looked h | signalled h | claimed h | claimFailed h | rested h | loaderOffered h | handed h
  | loaderTurnedAway h | loaderReported h | loaderTorn h =>
      rw [h.not_gone] at hgone
      cases hgone
  | took hw h hqueue =>
      rw [hqueue] at hempty
      cases hempty
  | poolEnded h => exact Bool.and_eq_true_iff.2 ⟨hgone, rfl⟩
  | _ => exact hfinished

/-- When there will be no more outcomes, that stays so. -/
theorem Moves.outcomesFinished (h : s.Moves m s') (hfinished : s.outcomesFinished) :
    s'.outcomesFinished := by
  obtain ⟨hgone, hempty⟩ := Bool.and_eq_true_iff.1 hfinished
  cases h with
  | took hw h | workerFinished hw h | probed hw h | workerTorn hw h | emitted hw h
  | workerTurnedAway hw h | workerOffered hw h | workerReported hw h =>
      rw [not_workersGone hw h] at hgone
      cases hgone
  | received h hqueue =>
      rw [hqueue] at hempty
      cases hempty
  | recorderReported h | recorderTorn h => exact Bool.and_eq_true_iff.2 ⟨hgone, rfl⟩
  | _ => exact hfinished

end Endings

/-- **Who was gone when a part ended.**  The channels are open until their
receivers are gone.  A worker that takes no more targets does so because there
will be none, or because the recorder went before it had heard all outcomes; a
recorder that heard all of them did so when the workers were gone; and a
collector ends when everybody who reports to it is gone. -/
structure Orderly (s : System) : Prop where
  staffed : s.workers ≠ []
  pool : s.pool.Watches s.workers
  targets : s.targets.Ends s.pool.hasEnded
  outcomes : s.outcomes.Ends s.recorder.isGone
  reports : s.reports.Ends s.collector.isGone
  workers : ∀ w ∈ s.workers, w.isDone →
    s.targetsFinished ∨ s.recorder.isGone ∧ s.recorder.hasHeardAll = false
  recorder : s.recorder.hasHeardAll → s.outcomesFinished
  collector : s.collector.phase = .ended → s.loader.isGone ∧ s.workersGone ∧ s.recorder.isGone

theorem orderly_start (settings : Settings) : (start settings).Orderly where
  staffed := by
    rw [start, ne_eq, List.replicate_eq_nil_iff]
    exact Nat.ne_of_gt (Nat.le_max_right _ _)
  pool := Pool.watches_fresh _
  targets := Channel.ends_ofCapacity _
  outcomes := Channel.ends_ofCapacity _
  reports := Channel.ends_ofCapacity _
  workers w hw hdone := by
    obtain rfl := List.eq_of_mem_replicate hw
    cases hdone
  recorder h := by cases h
  collector h := by cases h

section Steps

variable {i : Nat} {w w' : Worker} {e : WorkerEvent}

/-- The channel of targets ends with the pool. -/
theorem Moves.ends_targets (h : s.Moves m s')
    (hends : s.targets.Ends s.pool.hasEnded) : s'.targets.Ends s'.pool.hasEnded := by
  cases h with
  | handed h ht hroom => exact hends.push hroom _
  | took hw h hqueue => exact hends.pop hqueue
  | poolNoted h =>
      cases h with
      | noted => exact hends
  | poolEnded h =>
      cases h with
      | ended => exact Channel.ends_close _
  | _ => exact hends

/-- The channel of outcomes ends with the recorder. -/
theorem Moves.ends_outcomes (h : s.Moves m s') (hends : s.outcomes.Ends s.recorder.isGone) :
    s'.outcomes.Ends s'.recorder.isGone := by
  cases h with
  | emitted hw h ho hroom => exact hends.push hroom _
  | received h hqueue =>
      rw [h.not_gone] at hends
      show Channel.Ends _ (Recorder.isGone _)
      rw [h.isGone_eq]
      exact hends.pop hqueue
  | recorderBegun h | ticked h | idled h | recorderFinished h | committed h | commitFailed h
  | recorderOffered h =>
      rw [h.not_gone] at hends
      show Channel.Ends _ (Recorder.isGone _)
      rw [h.isGone_eq]
      exact hends
  | recorderReported h | recorderTorn h =>
      show Channel.Ends _ (Recorder.isGone _)
      rw [h.isGone_eq]
      exact Channel.ends_close _
  | _ => exact hends

/-- The channel of reports ends with the collector. -/
theorem Moves.ends_reports (h : s.Moves m s') (hends : s.reports.Ends s.collector.isGone) :
    s'.reports.Ends s'.collector.isGone := by
  cases h with
  | loaderOffered h hreports | workerOffered hw h hreports | idled h hreports
  | recorderOffered h hreports =>
      rcases offerReport_cases hreports with rfl | ⟨hroom, rfl⟩
      · exact hends
      · exact hends.push hroom _
  | loaderReported h hreports | workerReported hw h hreports | recorderReported h hreports =>
      rcases lastReport_cases hreports with rfl | ⟨hroom, rfl⟩
      · exact hends
      · exact hends.push hroom _
  | collectorBegun h =>
      rw [h.not_gone] at hends
      show Channel.Ends _ (Collector.isGone _)
      rw [h.isGone_eq]
      exact hends
  | collectorTook h hqueue =>
      rw [h.not_gone] at hends
      show Channel.Ends _ (Collector.isGone _)
      rw [h.isGone_eq]
      exact hends.pop hqueue
  | collectorFinished h | collectorTorn h =>
      show Channel.Ends _ (Collector.isGone _)
      rw [h.isGone_eq]
      exact Channel.ends_close _
  | _ => exact hends

/-- The pool goes on to watch its workers. -/
theorem Moves.watches (h : s.Moves m s') (hpool : s.pool.Watches s.workers) :
    s'.pool.Watches s'.workers := by
  cases h with
  | took hw h | workerFinished hw h | probed hw h | workerTorn hw h | emitted hw h
  | workerTurnedAway hw h | workerOffered hw h | workerReported hw h =>
      exact hpool.worker hw h
  | poolNoted h | poolEnded h => exact hpool.step h
  | _ => exact hpool

/-- Why a worker takes no more targets stays so. -/
theorem Moves.why_done (h : s.Moves m s')
    (hwhy : s.targetsFinished ∨ s.recorder.isGone ∧ s.recorder.hasHeardAll = false) :
    s'.targetsFinished ∨ s'.recorder.isGone ∧ s'.recorder.hasHeardAll = false := by
  rcases hwhy with hfinished | ⟨hgone, hheard⟩
  · exact .inl (h.targetsFinished hfinished)
  · rw [h.recorder_gone hgone]
    exact .inr ⟨hgone, hheard⟩

/-- A worker that stops had stopped before, or it has been told that there are no
more targets, or it was turned away. -/
theorem Moves.done_cases (h : s.Moves (.worker i e) s') (hmoves : w.Moves e w')
    (hdone : w'.isDone) :
    w.isDone ∨ s.targetsFinished ∨ e = .turnedAway ∧ s.outcomes.isOpen = false := by
  cases hmoves with
  | finished hphase =>
      cases h with
      | workerFinished _ _ hfinished => exact .inr (.inl hfinished)
  | turnedAway hphase =>
      cases h with
      | workerTurnedAway _ _ hclosed => exact .inr (.inr ⟨rfl, hclosed⟩)
  | reported hphase accepted => exact .inl (by simp [Worker.isDone, hphase])
  | took hphase t | probed hphase ho | tornDown hphase | offered hphase accepted => cases hdone
  | emitted hphase =>
      by_cases hdue : Worker.reportEvery ≤ w.unreported.probed
      · simp [Worker.isDone, hdue] at hdone
      · simp [Worker.isDone, hdue] at hdone

/-- A worker that stops has been told that there are no more targets, or the recorder
went before it had heard all outcomes. -/
theorem Orderly.worker_done (h : s.Orderly) (hstep : s.Moves (.worker i e) s')
    (hw : s.workers[i]? = some w) (hmoves : w.Moves e w') (hdone : w'.isDone) :
    s.targetsFinished ∨ s.recorder.isGone ∧ s.recorder.hasHeardAll = false := by
  rcases hstep.done_cases hmoves hdone with hbefore | hfinished | ⟨rfl, hclosed⟩
  · exact h.workers w (List.mem_of_getElem? hw) hbefore
  · exact .inl hfinished
  · refine .inr ⟨h.outcomes.gone hclosed, ?_⟩
    cases hheard : s.recorder.hasHeardAll with
    | false => rfl
    | true =>
        -- the recorder would have waited for this worker
        have hgone := (Bool.and_eq_true_iff.1 (h.recorder hheard)).1
        rw [not_workersGone hw hmoves] at hgone
        cases hgone

/-- **One move** keeps the order of endings. -/
theorem Orderly.step (h : s.Orderly) (hmoves : s.Moves m s') : s'.Orderly where
  staffed := by
    rcases hmoves.workers with hworkers | ⟨i, w, w', e, _, _, _, hworkers⟩
    · rw [hworkers]
      exact h.staffed
    · rw [hworkers, ne_eq, List.set_eq_nil_iff]
      exact h.staffed
  pool := hmoves.watches h.pool
  targets := hmoves.ends_targets h.targets
  outcomes := hmoves.ends_outcomes h.outcomes
  reports := hmoves.ends_reports h.reports
  workers v hv hdone := by
    rcases hmoves.workers with hworkers | ⟨i, w, w', e, rfl, hw, hworker, hworkers⟩
    · rw [hworkers] at hv
      exact hmoves.why_done (h.workers v hv hdone)
    · rw [hworkers] at hv
      rcases List.mem_or_eq_of_mem_set hv with hv | rfl
      · exact hmoves.why_done (h.workers v hv hdone)
      · exact hmoves.why_done (h.worker_done hmoves hw hworker hdone)
  recorder hheard := by
    rcases hmoves.recorder .empty with ⟨hrecorder, _⟩ | ⟨e, rfl, hrecorder, _⟩
    · rw [hrecorder] at hheard
      exact hmoves.outcomesFinished (h.recorder hheard)
    · rcases hrecorder.hasHeardAll hheard with hheard | rfl
      · exact hmoves.outcomesFinished (h.recorder hheard)
      · cases hmoves with
        | recorderFinished _ hfinished => exact hfinished
  collector hended := by
    rcases hmoves.collector with hcollector | ⟨e, rfl, hcollector⟩
    · rw [hcollector] at hended
      obtain ⟨hloader, hworkers, hrecorder⟩ := h.collector hended
      refine ⟨?_, ?_, ?_⟩
      · rw [hmoves.loader_gone hloader]
        exact hloader
      · unfold workersGone
        rw [hmoves.workers_gone hworkers]
        exact hworkers
      · rw [hmoves.recorder_gone hrecorder]
        exact hrecorder
    · obtain rfl := hcollector.finished_of_ended hended
      cases hmoves with
      | collectorFinished _ hfinished =>
          simp only [reportsFinished, Bool.and_eq_true] at hfinished
          obtain ⟨⟨⟨hloader, hworkers⟩, hrecorder⟩, _⟩ := hfinished
          exact ⟨hloader, hworkers, hrecorder⟩

/-- **Wherever a run leads,** the order of endings is kept. -/
theorem orderly_of_run {settings : Settings} {moves : List Move}
    (h : Run step (start settings) moves s) : s.Orderly :=
  h.invariant (orderly_start settings) fun _ _ _ horderly hstep =>
    horderly.step (moves_of_step hstep)

end Steps

end System

end PeerWatch
