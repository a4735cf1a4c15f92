import PeerWatch.Proofs.Pipeline.Endings
import PeerWatch.Proofs.Pipeline.Reporters

/-!
# The parts of a pipeline as reporters

The loader, the recorder and each worker count what they do and report it as reporters
do: what they have still to report changes by an observation, by an offer or by the last
report, and by nothing else.  So the reports of a pipeline, wherever its run leads, are
those of a run of reporters, and no count is lost on its way.

* `Loader.reporter`, `Worker.reporter`, `Recorder.reporter` — the parts as reporters;
* `System.Moves.reporting` — what a move is to them;
* `System.reporting_of_run`, `System.progress_of_run` — what a run is to them.
-/

namespace PeerWatch

/-- The loader as a reporter. -/
def Loader.reporter (l : Loader) : Reporter := ⟨l.pending, l.phase = .ended⟩

/-- A worker as a reporter. -/
def Worker.reporter (w : Worker) : Reporter := ⟨w.pending, w.phase = .ended⟩

/-- The recorder as a reporter. -/
def Recorder.reporter (r : Recorder) : Reporter := ⟨r.pending, r.phase = .ended⟩

/-- What an event at a loader is to it as a reporter. -/
theorem Loader.Moves.reporter {l l' : Loader} {e : LoaderEvent} (h : l.Moves e l') :
    l.reporter.hasEnded = false ∧
      match e with
      | .claimed batch => l'.reporter.hasEnded = false ∧
          l.pending.observe (.claimed batch.length) = some l'.pending
      | .offered accepted => l'.reporter = l.reporter.offered accepted
      | .reported _ => l'.reporter = l.reporter.ended
      | _ => l'.reporter = l.reporter := by
  have hthere : l.reporter.hasEnded = false := by
    have hgone := h.not_gone
    simp only [Loader.isGone, decide_eq_false_iff_not, not_or] at hgone
    exact decide_eq_false hgone.1
  refine ⟨hthere, ?_⟩
  have hphase : l.phase ≠ .ended := of_decide_eq_false hthere
  cases h with
  | looked | signalled | claimFailed | tornDown | turnedAway | rested =>
      simp [Loader.reporter, Loader.enter, Loader.pending, hphase]
  | idled | claimed => exact ⟨rfl, rfl⟩
  | @offered batch hoffering accepted =>
      cases batch <;> cases accepted <;>
        simp [Loader.reporter, Reporter.offered, Loader.handing, Loader.enter, Loader.pending,
          Report.cleared, hphase]
  | @handed t rest =>
      cases rest <;> simp [Loader.reporter, Loader.handing, Loader.enter, Loader.pending, hphase]
  | reported => rfl

/-- What an event at a worker is to it as a reporter. -/
theorem Worker.Moves.reporter {w w' : Worker} {e : WorkerEvent} (h : w.Moves e w') :
    w.reporter.hasEnded = false ∧
      match e with
      | .probed o => w'.reporter.hasEnded = false ∧
          w.pending.observe (.probed o) = some w'.pending
      | .offered accepted => w'.reporter = w.reporter.offered accepted
      | .reported _ => w'.reporter = w.reporter.ended
      | _ => w'.reporter = w.reporter := by
  have hthere : w.reporter.hasEnded = false := by
    have hgone := h.not_gone
    simp only [Worker.isGone, decide_eq_false_iff_not, not_or] at hgone
    exact decide_eq_false hgone.1
  refine ⟨hthere, ?_⟩
  have hphase : w.phase ≠ .ended := of_decide_eq_false hthere
  cases h with
  | took | finished | tornDown | turnedAway => simp [Worker.reporter, Worker.pending, hphase]
  | probed => exact ⟨rfl, rfl⟩
  | emitted =>
      by_cases hdue : reportEvery ≤ w.unreported.probed <;>
        simp [Worker.reporter, Worker.pending, hphase, hdue]
  | offered hoffering accepted =>
      cases accepted <;>
        simp [Worker.reporter, Reporter.offered, Worker.pending, Report.cleared, hphase]
  | reported => rfl

/-- What an event at a recorder is to it as a reporter. -/
theorem Recorder.Moves.reporter {r r' : Recorder} {e : RecorderEvent} (h : r.Moves e r') :
    r.reporter.hasEnded = false ∧
      match e with
      | .committed => r'.reporter.hasEnded = false ∧
          r.pending.observe (.committed r.buffer.length 1) = some r'.pending
      | .idled accepted | .offered accepted => r'.reporter = r.reporter.offered accepted
      | .reported _ => r'.reporter = r.reporter.ended
      | _ => r'.reporter = r.reporter := by
  have hthere : r.reporter.hasEnded = false := by
    have hgone := h.not_gone
    simp only [Recorder.isGone, decide_eq_false_iff_not, not_or] at hgone
    exact decide_eq_false hgone.1
  refine ⟨hthere, ?_⟩
  have hphase : r.phase ≠ .ended := of_decide_eq_false hthere
  cases h with
  | begun | tornDown | gathered | filled | ticked | finished | closing | commitFailed =>
      simp [Recorder.reporter, Recorder.pending, hphase]
  | idled _ _ accepted | offered _ accepted =>
      cases accepted <;>
        simp [Recorder.reporter, Reporter.offered, Recorder.afterOffer, Recorder.pending,
          Report.cleared, hphase]
  | @committed cause => cases cause <;> exact ⟨rfl, rfl⟩
  | reported => rfl

namespace System

variable {s s' : System} {m : Move}

/-- The parts of a pipeline as reporters. -/
def reporting (s : System) : Reporting where
  reporters := s.loader.reporter :: s.recorder.reporter :: s.workers.map (·.reporter)
  reports := s.reports
  totals := s.collector.totals

section Reporting

/-- The workers have the places after the loader's and the recorder's. -/
theorem reporting_worker (s : System) (i : Nat) (w : Worker) (reports : Channel Report) :
    { s with workers := s.workers.set i w, reports := reports }.reporting =
      { s.reporting with
        reporters := s.reporting.reporters.set (i + 2) w.reporter, reports := reports } := by
  simp [reporting, List.map_set]

/-- The place of a worker among the reporters. -/
theorem reporter_worker {i : Nat} {w : Worker} (hw : s.workers[i]? = some w) :
    s.reporting.reporters[i + 2]? = some w.reporter := by
  simp [reporting, hw]

/-- A reporter that stays as it is leaves them all as they are. -/
theorem reporting_set_self {i : Nat} {r r' : Reporter} (hr : s.reporting.reporters[i]? = some r)
    (hsame : r' = r) :
    { s.reporting with reporters := s.reporting.reporters.set i r' } = s.reporting := by
  obtain ⟨hlt, rfl⟩ := List.getElem?_eq_some_iff.1 hr
  rw [hsame, List.set_getElem_self]

/-- A move is nothing to the reporters of a pipeline, or it is an event at one of them,
or at the channel. -/
theorem Moves.reporting (h : s.Moves m s') :
    s'.reporting = s.reporting ∨ ∃ e, s.reporting.Moves e s'.reporting := by
  cases h with
  | looked hl | signalled hl | claimFailed hl | rested hl | handed hl | loaderTurnedAway hl
  | loaderTorn hl =>
      exact .inl (reporting_set_self (i := 0) rfl hl.reporter.2)
  | @claimed l batch hl =>
      obtain ⟨hthere, hthere', hx⟩ := hl.reporter
      exact .inr ⟨_, .observed_set (i := 0) rfl hthere hthere' hx⟩
  | @loaderOffered l accepted reports hl hreports =>
      obtain ⟨hthere, hgoes⟩ := hl.reporter
      exact .inr ⟨_, .offered_set (i := 0) rfl hthere hreports hgoes⟩
  | @loaderReported l accepted reports hl hreports =>
      obtain ⟨hthere, hgoes⟩ := hl.reporter
      exact .inr ⟨_, .reported_set (i := 0) rfl hthere hreports hgoes⟩
  | took hw hworker | workerFinished hw hworker | workerTorn hw hworker | emitted hw hworker
  | workerTurnedAway hw hworker =>
      have hsame := reporting_set_self (reporter_worker hw) hworker.reporter.2
      rw [← hsame]
      exact .inl (reporting_worker s _ _ s.reports)
  | @probed i w w' o hw hworker =>
      obtain ⟨hthere, hthere', hx⟩ := hworker.reporter
      rw [reporting_worker s i w' s.reports]
      exact .inr ⟨_, .observed_set (reporter_worker hw) hthere hthere' hx⟩
  | @workerOffered i w w' accepted reports hw hworker hreports =>
      obtain ⟨hthere, hgoes⟩ := hworker.reporter
      rw [reporting_worker s i w' reports]
      exact .inr ⟨_, .offered_set (reporter_worker hw) hthere hreports hgoes⟩
  | @workerReported i w w' accepted reports hw hworker hreports =>
      obtain ⟨hthere, hgoes⟩ := hworker.reporter
      rw [reporting_worker s i w' reports]
      exact .inr ⟨_, .reported_set (reporter_worker hw) hthere hreports hgoes⟩
  | recorderBegun hr | received hr | ticked hr | recorderFinished hr | commitFailed hr
  | recorderTorn hr =>
      exact .inl (reporting_set_self (i := 1) rfl hr.reporter.2)
  | committed hr =>
      obtain ⟨hthere, hthere', hx⟩ := hr.reporter
      exact .inr ⟨_, .observed_set (i := 1) rfl hthere hthere' hx⟩
  | idled hr hreports | recorderOffered hr hreports =>
      obtain ⟨hthere, hgoes⟩ := hr.reporter
      exact .inr ⟨_, .offered_set (i := 1) rfl hthere hreports hgoes⟩
  | recorderReported hr hreports =>
      obtain ⟨hthere, hgoes⟩ := hr.reporter
      exact .inr ⟨_, .reported_set (i := 1) rfl hthere hreports hgoes⟩
  | collectorBegun hc =>
      cases hc
      exact .inl rfl
  | collectorTook hc hqueue =>
      cases hc
      exact .inr ⟨_, .collected hqueue⟩
  | collectorFinished hc | collectorTorn hc =>
      cases hc
      exact .inr ⟨_, .closed⟩
  | poolNoted | poolEnded | stageNoted | published | alarmed | concluded | closed | asked
  | gaveSignal => exact .inl rfl

variable {settings : Settings} {moves : List Move}

/-- **The parts of a pipeline are reporters:** its run is one of theirs. -/
theorem reporting_of_run (h : Run step (start settings) moves s) :
    ∃ events, Run Reporting.step (Reporting.start
      (.loader :: .recorder :: List.replicate (max settings.probe.concurrency 1) .probe)
      (reportCapacity settings.channels.capacity)) events s.reporting := by
  induction h with
  | nil =>
      refine ⟨[], ?_⟩
      have hstart : (start settings).reporting = Reporting.start
          (.loader :: .recorder :: List.replicate (max settings.probe.concurrency 1) .probe)
          (reportCapacity settings.channels.capacity) := by
        simp [reporting, start, Reporting.start, Reporter.fresh, Loader.reporter, Loader.fresh,
          Loader.pending, Recorder.reporter, Recorder.fresh, Recorder.pending, Worker.reporter,
          Worker.fresh, Worker.pending, Collector.fresh]
      rw [hstart]
      exact .nil
  | snoc _ hstep ih =>
      obtain ⟨events, hrun⟩ := ih
      rcases (moves_of_step hstep).reporting with hsame | ⟨e, hmoves⟩
      · rw [hsame]
        exact ⟨events, hrun⟩
      · exact ⟨events ++ [e], .snoc hrun (Reporting.step_eq_some_iff.2 hmoves)⟩

/-- **Wherever a run leads,** no count of a pipeline is lost on its way. -/
theorem progress_of_run (h : Run step (start settings) moves s) :
    ∃ seen, s.reporting.Conserves (reportCapacity settings.channels.capacity) seen := by
  obtain ⟨events, hrun⟩ := reporting_of_run h
  obtain ⟨seen, hrun⟩ := hrun.noted Reporting.note []
  exact ⟨seen, Reporting.conserves_of_run hrun⟩

end Reporting

end System

end PeerWatch
