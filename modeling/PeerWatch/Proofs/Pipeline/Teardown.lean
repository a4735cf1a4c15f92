import PeerWatch.Proofs.Pipeline.Remainders

/-!
# Teardown

Everybody in a pipeline may wait for somebody else: the loader for room among the
targets, a worker for a target or for room among the outcomes, the recorder for an
outcome, each of them for room among the reports, the collector for a report, the
supervisor for all.  Once the signal is given, none of them waits in vain.  The loader
need not wait for room any more.  Without the loader a worker finds a target or learns
that there will be none; whoever waits for room waits for somebody who can make it, or
finds nobody there; and who waits for others to go waits for somebody who has work to do.

What the pipeline waits for outside — the store for a batch, a peer for a probe — answers,
in whatever way.

* `System.Wired` — what keeps the parts from waiting in vain;
* `Replies`, `System.CanGoOn` — a move that waits for nobody;
* `System.Wired.loader_goesOn` and so on — each part in turn goes on, if those before it
  are gone;
* `System.teardown_never_gets_stuck`.
-/

namespace PeerWatch

namespace Shutdown

variable {s : Shutdown}

/-- The signal, when it is given, waits for the first subscriber. -/
theorem waitsFor_trigger (hwaiting : s.waiting ≠ []) (htriggered : s.triggered = false) :
    s.trigger.1.waitsFor 0 := by
  have hunseen : s.signals.unseen ≠ [] := fun hnone => hwaiting (List.map_eq_nil_iff.2 hnone)
  obtain ⟨signals, hsend⟩ := Option.ne_none_iff_exists'.1 fun hnone =>
    hunseen ((Broadcast.send?_eq_none_iff (v := ())).1 hnone)
  simp [trigger, htriggered, waitsFor, hsend, Broadcast.lag_of_send? hsend,
    List.length_pos_of_ne_nil hunseen]

/-- A signal takes no subscriber away. -/
theorem waiting_trigger (hwaiting : s.waiting ≠ []) : s.trigger.1.waiting ≠ [] := by
  rw [← List.length_pos_iff] at hwaiting ⊢
  rwa [length_waiting_trigger]

/-- Receiving takes no subscriber away. -/
theorem waiting_receive (hwaiting : s.waiting ≠ []) (subscriber : Nat) :
    (s.receive subscriber).1.waiting ≠ [] := by
  rw [← List.length_pos_iff] at hwaiting ⊢
  rwa [receive, length_waiting_poll]

end Shutdown

namespace Loader

variable {l l' : Loader} {e : LoaderEvent}

/-- A loader that has stopped its work does not take it up again. -/
theorem Moves.isAtWork (h : l.Moves e l') (hwork : l'.isAtWork) : l.isAtWork := by
  cases h with
  | looked | signalled | tornDown | claimFailed | turnedAway | reported =>
      first | exact hwork | cases hwork
  | idled hphase | claimed hphase | offered hphase | handed hphase | rested hphase =>
      simp [Loader.isAtWork, hphase]

end Loader

/-- Whether an event is the last one at a loader. -/
def LoaderEvent.isLast : LoaderEvent → Bool
  | .reported _ | .tornDown => true
  | _ => false

/-- A loader is gone after its last event, and not before. -/
theorem Loader.Moves.isGone_eq {l l' : Loader} {e : LoaderEvent} (h : l.Moves e l') :
    l'.isGone = e.isLast := by
  have hthere := h.not_gone
  cases h with
  | looked => exact hthere
  | @offered batch => cases batch <;> rfl
  | @handed t rest => cases rest <;> rfl
  | _ => rfl

namespace System

variable {s s' : System} {m : Move}

/-- **What keeps the parts from waiting in vain.**  A channel takes something as long as
its receiver is there; a stage that is gone is in the list of those that have ended; and
once the signal is given, it waits for the loader that is at work. -/
structure Wired (s : System) : Prop where
  outcomes : s.outcomes.Ends s.recorder.isGone
  reports : s.reports.Ends s.collector.isGone
  roomy : 0 < s.outcomes.capacity ∧ 0 < s.reports.capacity
  noted : s.pool.noted.length = s.workers.length
  listed : ∀ stage, (s.result? stage).isSome → ∃ result, (stage, result) ∈ s.ended
  listening : s.shutdown.waiting ≠ []
  signalled : s.shutdown.triggered → s.loader.isAtWork → s.shutdown.waitsFor 0

theorem wired_start (settings : Settings) : (start settings).Wired where
  outcomes := Channel.ends_ofCapacity _
  reports := Channel.ends_ofCapacity _
  roomy := by
    have hcapacity : 0 < channelCapacity settings.channels.capacity := Nat.le_max_right _ _
    exact ⟨hcapacity, Nat.mul_pos hcapacity (by decide)⟩
  noted := by simp [start, Pool.fresh]
  listed stage h := by cases stage <;> cases h
  listening := List.cons_ne_nil _ _
  signalled h := by cases h

section Wiring

/-- No move changes the places of a channel. -/
theorem Moves.capacity (h : s.Moves m s') :
    s'.outcomes.capacity = s.outcomes.capacity ∧ s'.reports.capacity = s.reports.capacity := by
  have hoffer {reports reports' : Channel Report} {pending : Report} {accepted : Bool}
      (h : offerReport reports pending accepted = some reports') :
      reports'.capacity = reports.capacity := by
    rcases offerReport_cases h with rfl | ⟨_, rfl⟩ <;> rfl
  have hlast {reports reports' : Channel Report} {pending : Report} {accepted : Bool}
      (h : lastReport reports pending accepted = some reports') :
      reports'.capacity = reports.capacity := by
    rcases lastReport_cases h with rfl | ⟨_, rfl⟩ <;> rfl
  cases h with
  | loaderOffered _ hreports | idled _ hreports | recorderOffered _ hreports =>
      exact ⟨rfl, hoffer hreports⟩
  | workerOffered _ _ hreports => exact ⟨rfl, hoffer hreports⟩
  | loaderReported _ hreports | recorderReported _ hreports => exact ⟨rfl, hlast hreports⟩
  | workerReported _ _ hreports => exact ⟨rfl, hlast hreports⟩
  | _ => exact ⟨rfl, rfl⟩

/-- A stage that ends is put into the list. -/
theorem Moves.listed (h : s.Moves m s') {stage : Stage} (hended : (s'.result? stage).isSome) :
    (s.result? stage).isSome ∨ ∃ result, (stage, result) ∈ s'.ended := by
  have hlist {stage : Stage} {result : Option (Except PipelineError Unit)}
      (hresult : result.isSome) : ∃ r, (stage, r) ∈ s.ended ++ endings stage result := by
    obtain ⟨r, rfl⟩ := Option.isSome_iff_exists.1 hresult
    exact ⟨r, List.mem_append_right _ (List.mem_singleton_self _)⟩
  cases h with
  | loaderReported | loaderTorn =>
      cases stage with
      | loader => exact .inr (hlist hended)
      | probe | recorder => exact .inl hended
  | recorderReported | recorderTorn =>
      cases stage with
      | recorder => exact .inr (hlist hended)
      | probe | loader => exact .inl hended
  | poolEnded =>
      cases stage with
      | probe => exact .inr (hlist rfl)
      | loader | recorder => exact .inl hended
  | looked hl | signalled hl | claimed hl | claimFailed hl | rested hl | loaderOffered hl
  | handed hl | loaderTurnedAway hl =>
      cases stage with
      | loader =>
          have hgone := Loader.isGone_of_result? hended
          rw [hl.isGone_eq] at hgone
          cases hgone
      | probe | recorder => exact .inl hended
  | recorderBegun hr | received hr | ticked hr | idled hr | recorderFinished hr | committed hr
  | commitFailed hr | recorderOffered hr =>
      cases stage with
      | recorder =>
          have hgone := Recorder.isGone_of_result? hended
          rw [hr.isGone_eq] at hgone
          cases hgone
      | probe | loader => exact .inl hended
  | poolNoted hp =>
      cases hp
      rw [System.isSome_result?] at hended ⊢
      exact .inl (by cases stage <;> exact hended)
  | _ => exact .inl (by cases stage <;> exact hended)

/-- The signal, once it is given, waits for the loader that is at work. -/
theorem Wired.signal_step (h : s.Wired) (hmoves : s.Moves m s') :
    s'.shutdown.waiting ≠ [] ∧
      (s'.shutdown.triggered → s'.loader.isAtWork → s'.shutdown.waitsFor 0) := by
  have htrigger : s.loader.isAtWork → (s.shutdown.trigger).1.waitsFor 0 := by
    intro hwork
    cases htriggered : s.shutdown.triggered with
    | true =>
        rw [Shutdown.trigger, if_pos htriggered]
        exact h.signalled htriggered hwork
    | false => exact Shutdown.waitsFor_trigger h.listening htriggered
  cases hmoves with
  | signalled hl =>
      refine ⟨Shutdown.waiting_receive h.listening 0, fun _ hwork => ?_⟩
      cases hl
      cases hwork
  | alarmed | gaveSignal =>
      exact ⟨Shutdown.waiting_trigger h.listening, fun _ => htrigger⟩
  | looked hl | claimed hl | claimFailed hl | rested hl | loaderOffered hl | handed hl
  | loaderTurnedAway hl | loaderReported hl | loaderTorn hl =>
      exact ⟨h.listening, fun htriggered hwork => h.signalled htriggered (hl.isAtWork hwork)⟩
  | _ => exact ⟨h.listening, h.signalled⟩

/-- The pool keeps a note for each worker. -/
theorem Moves.length_noted (h : s.Moves m s') (hnoted : s.pool.noted.length = s.workers.length) :
    s'.pool.noted.length = s'.workers.length := by
  cases h with
  | took hw hworker | workerFinished hw hworker | probed hw hworker | workerTorn hw hworker
  | emitted hw hworker | workerTurnedAway hw hworker | workerOffered hw hworker
  | workerReported hw hworker =>
      rw [List.length_set]
      exact hnoted
  | poolNoted hp =>
      cases hp
      rw [List.length_set]
      exact hnoted
  | poolEnded hp =>
      cases hp
      exact hnoted
  | _ => exact hnoted

/-- A pipeline stays wired. -/
theorem Wired.move (h : s.Wired) (hmoves : s.Moves m s') : s'.Wired where
  outcomes := hmoves.ends_outcomes h.outcomes
  reports := hmoves.ends_reports h.reports
  roomy := by
    obtain ⟨houtcomes, hreports⟩ := hmoves.capacity
    rw [houtcomes, hreports]
    exact h.roomy
  noted := hmoves.length_noted h.noted
  listed stage hended := by
    rcases hmoves.listed hended with hbefore | hlisted
    · obtain ⟨result, hmem⟩ := h.listed stage hbefore
      rcases hmoves.ended with hsame | ⟨_, _, happended⟩
      · exact ⟨result, hsame ▸ hmem⟩
      · exact ⟨result, happended ▸ List.mem_append_left _ hmem⟩
    · exact hlisted
  listening := (h.signal_step hmoves).1
  signalled := (h.signal_step hmoves).2

/-- A stage that broke off leaves the others as they were. -/
theorem Wired.brokeOff (h : s.Wired) (stage : Stage) (result : Except PipelineError Unit) :
    Wired { s.without stage with ended := s.ended ++ [(stage, result)] } := by
  have hlisted (stage' : Stage) (hended : ((s.without stage).result? stage').isSome) :
      ∃ r, (stage', r) ∈ s.ended ++ [(stage, result)] := by
    rw [isSome_result?_without, Bool.or_eq_true, decide_eq_true_iff] at hended
    rcases hended with rfl | hended
    · exact ⟨result, List.mem_append_right _ (List.mem_singleton_self _)⟩
    · obtain ⟨r, hmem⟩ := h.listed stage' hended
      exact ⟨r, List.mem_append_left _ hmem⟩
  cases stage with
  | loader =>
      exact ⟨h.outcomes, h.reports, h.roomy, h.noted, hlisted, h.listening, fun _ hwork => by
        cases hwork⟩
  | probe =>
      refine ⟨h.outcomes, h.reports, h.roomy, ?_, hlisted, h.listening, h.signalled⟩
      show s.pool.noted.length = (s.workers.map _).length
      rw [List.length_map]
      exact h.noted
  | recorder =>
      exact ⟨Channel.ends_close _, h.reports, h.roomy, h.noted, hlisted, h.listening, h.signalled⟩

/-- **Whatever happens,** no part comes to wait in vain. -/
theorem Wired.step {m : WatchMove} (h : s.Wired) (hwatches : s.Watches m s') : s'.Wired := by
  cases hwatches with
  | move hmoves => exact h.move hmoves
  | @brokeOff stage hthere result => exact h.brokeOff stage result
  | collectorBrokeOff =>
      refine ⟨h.outcomes, Channel.ends_close _, h.roomy, h.noted, ?_, h.listening, h.signalled⟩
      intro stage hended
      exact h.listed stage (by cases stage <;> exact hended)

end Wiring

end System

/-- How those answer whom a pipeline waits for: the peer of a target that a worker probes,
whose probe may tear the worker down, and the store with the batch of the recorder. -/
structure Replies where
  probe (worker : Nat) (t : Target) : Option { o : Outcome // o.target = t.id }
  commit : Option StoreError

/-- Whether a move is what comes of the answers.  No claim is answered at all. -/
def Replies.Allow (replies : Replies) (s : System) : Move → Prop
  | .loader (.claimed _) | .loader (.claimFailed _) | .loader .tornDown => False
  | .worker i (.probed o) => ∃ w t, s.workers[i]? = some w ∧ w.phase = .probing t ∧
      (replies.probe i t).map (·.1) = some o
  | .worker i .tornDown => ∃ w t, s.workers[i]? = some w ∧ w.phase = .probing t ∧
      replies.probe i t = none
  | .recorder .committed => replies.commit = none
  | .recorder (.commitFailed e) => replies.commit = some e
  | _ => True

/-- Whether a move waits for a time to pass. -/
def Move.isTimed : Move → Bool
  | .loader .rested | .recorder .ticked | .recorder (.idled _) => true
  | _ => false

namespace System

variable {s s' : System} {m : Move} {replies : Replies}

/-- A move that can be made now and brings the pipeline to its end. -/
structure GoesOn (s : System) (replies : Replies) (m : Move) : Prop where
  work : m.isWork
  untimed : m.isTimed = false
  allowed : replies.Allow s m
  enabled : (s.step m).isSome

/-- Whether something can be done now. -/
def CanGoOn (s : System) (replies : Replies) : Prop := ∃ m, s.GoesOn replies m

section GoingOn

/-- The collector goes on as long as there are reports, and when there will be none. -/
theorem collector_goesOn (hthere : s.collector.isGone = false)
    (hreports : s.reports.queue ≠ [] ∨ s.reportsFinished) : s.CanGoOn replies := by
  cases hphase : s.collector.phase with
  | beginning =>
      by_cases hinterval : 0 < s.collector.interval
      · exact ⟨.collector .begun, rfl, rfl, trivial,
          by simp [System.step, Collector.step, hphase, hinterval, collectorEffect]⟩
      · exact ⟨.collector .tornDown, rfl, rfl, trivial,
          by simp [System.step, Collector.step, hphase, hinterval, collectorEffect]⟩
  | collecting =>
      cases hqueue : s.reports.queue with
      | nil =>
          have hfinished := hreports.resolve_left (fun hsome => hsome hqueue)
          simp only [reportsFinished, workersGone, Bool.and_eq_true] at hfinished
          exact ⟨.collector .finished, rfl, rfl, trivial,
            by simp [System.step, Collector.step, hphase, collectorEffect, reportsFinished,
              workersGone, hfinished]⟩
      | cons r rest =>
          exact ⟨.collector (.took r), rfl, rfl, trivial,
            by simp [System.step, Collector.step, hphase, Channel.pop?, hqueue, collectorEffect]⟩
  | ended | tornDown => simp [Collector.isGone, hphase] at hthere

/-- A last report goes through, or is lost, or the collector can make room for it. -/
theorem Wired.lastReport_or (h : s.Wired) (pending : Report) :
    (∃ accepted reports, lastReport s.reports pending accepted = some reports) ∨
      s.collector.isGone = false ∧ s.reports.queue ≠ [] := by
  by_cases hnothing : pending.isNothing
  · exact .inl ⟨true, s.reports, by simp [lastReport, hnothing]⟩
  cases hopen : s.reports.isOpen with
  | false => exact .inl ⟨false, s.reports, by simp [lastReport, hopen]⟩
  | true =>
      by_cases hroom : 0 < s.reports.room
      · have hpush : (s.reports.push? pending).isSome := by simp [Channel.push?, hroom]
        obtain ⟨reports, hreports⟩ := Option.isSome_iff_exists.1 hpush
        exact .inl ⟨true, reports, by simp [lastReport, hnothing, hreports]⟩
      · right
        have hgone := h.reports.isOpen
        rw [hopen, eq_comm, Bool.not_eq_true'] at hgone
        refine ⟨hgone, fun hempty => hroom ?_⟩
        simpa [Channel.room, hopen, hempty] using h.roomy.2

/-- Whoever reports at last goes on, or the collector does. -/
theorem Wired.reporting_goesOn (h : s.Wired) (pending : Report)
    (hreport : ∀ accepted reports, lastReport s.reports pending accepted = some reports →
      s.CanGoOn replies) : s.CanGoOn replies := by
  rcases h.lastReport_or pending with ⟨accepted, reports, hreports⟩ | ⟨hthere, hsome⟩
  · exact hreport accepted reports hreports
  · exact collector_goesOn hthere (.inl hsome)

/-- **The loader goes on** once the signal is given: it takes the signal, or it offers a
report that it keeps, or it reports at last. -/
theorem Wired.loader_goesOn (h : s.Wired) (htriggered : s.shutdown.triggered)
    (hthere : s.loader.isGone = false) : s.CanGoOn replies := by
  cases hphase : s.loader.phase with
  | claiming | resting | handing =>
      have hsignal : s.shutdown.waitsFor 0 :=
        h.signalled htriggered (by simp [Loader.isAtWork, hphase])
      have hwatchful : s.loader.isWatchful := by simp [Loader.isWatchful, hphase]
      exact ⟨.loader .signalled, rfl, rfl, trivial,
        isSome_of_moves (.signalled (.signalled hwatchful) hsignal)⟩
  | offering batch =>
      exact ⟨.loader (.offered false), rfl, rfl, trivial,
        isSome_of_moves (.loaderOffered (.offered hphase false) (offerReport_false _ _))⟩
  | reporting =>
      refine h.reporting_goesOn s.loader.pending fun accepted reports hreports => ?_
      exact ⟨.loader (.reported accepted), rfl, rfl, trivial,
        isSome_of_moves (.loaderReported (.reported hphase accepted) hreports)⟩
  | ended | tornDown => simp [Loader.isGone, hphase] at hthere

/-- **The recorder goes on** as long as there are outcomes, and when there will be none. -/
theorem Wired.recorder_goesOn (h : s.Wired) (hthere : s.recorder.isGone = false)
    (houtcomes : s.outcomes.queue ≠ [] ∨ s.outcomesFinished) : s.CanGoOn replies := by
  cases hphase : s.recorder.phase with
  | beginning =>
      by_cases hbegin : s.recorder.canBegin
      · exact ⟨.recorder .begun, rfl, rfl, trivial,
          by simp [System.step, Recorder.step, hphase, hbegin, recorderEffect]⟩
      · exact ⟨.recorder .tornDown, rfl, rfl, trivial,
          by simp [System.step, Recorder.step, hphase, hbegin, recorderEffect]⟩
  | listening =>
      cases hqueue : s.outcomes.queue with
      | nil =>
          have hfinished := houtcomes.resolve_left (fun hsome => hsome hqueue)
          simp only [outcomesFinished, workersGone, Bool.and_eq_true] at hfinished
          exact ⟨.recorder .finished, rfl, rfl, trivial,
            by simp [System.step, Recorder.step, hphase, recorderEffect, outcomesFinished,
              workersGone, hfinished]⟩
      | cons o rest =>
          exact ⟨.recorder (.received o), rfl, rfl, trivial,
            by simp [System.step, Recorder.step, hphase, Channel.pop?, hqueue, recorderEffect]⟩
  | flushing cause =>
      cases hcommit : replies.commit with
      | none =>
          exact ⟨.recorder .committed, rfl, rfl, hcommit,
            by simp [System.step, Recorder.step, hphase, recorderEffect]⟩
      | some e =>
          exact ⟨.recorder (.commitFailed e), rfl, rfl, hcommit,
            by simp [System.step, Recorder.step, hphase, recorderEffect]⟩
  | offering cause =>
      exact ⟨.recorder (.offered false), rfl, rfl, trivial,
        by simp [System.step, Recorder.step, hphase, recorderEffect, offerReport]⟩
  | reporting =>
      refine h.reporting_goesOn s.recorder.pending fun accepted reports hreports => ?_
      exact ⟨.recorder (.reported accepted), rfl, rfl, trivial,
        by simp [System.step, Recorder.step, hphase, recorderEffect, hreports]⟩
  | ended | tornDown => simp [Recorder.isGone, hphase] at hthere

/-- An outcome goes into the channel, or nobody takes it, or the recorder can make room. -/
theorem Wired.emitting_or (h : s.Wired) :
    s.outcomes.isOpen = false ∨ 0 < s.outcomes.room ∨
      s.recorder.isGone = false ∧ s.outcomes.queue ≠ [] := by
  cases hopen : s.outcomes.isOpen with
  | false => exact .inl rfl
  | true =>
      by_cases hroom : 0 < s.outcomes.room
      · exact .inr (.inl hroom)
      · have hgone := h.outcomes.isOpen
        rw [hopen, eq_comm, Bool.not_eq_true'] at hgone
        refine .inr (.inr ⟨hgone, fun hempty => hroom ?_⟩)
        simpa [Channel.room, hopen, hempty] using h.roomy.1

/-- **A worker goes on** when the loader is gone: it takes a target or learns that there
will be none, its probe is answered, and its outcome is taken or turned away. -/
theorem Wired.worker_goesOn (h : s.Wired) (hloader : s.loader.isGone) {i : Nat} {w : Worker}
    (hw : s.workers[i]? = some w) (hthere : w.isGone = false) : s.CanGoOn replies := by
  cases hphase : w.phase with
  | waiting =>
      cases hqueue : s.targets.queue with
      | nil =>
          exact ⟨.worker i .finished, rfl, rfl, trivial,
            by simp [System.step, hw, Worker.step, hphase, workerEffect, targetsFinished, hloader,
              hqueue]⟩
      | cons t rest =>
          exact ⟨.worker i (.took t), rfl, rfl, trivial,
            by simp [System.step, hw, Worker.step, hphase, workerEffect, Channel.pop?, hqueue]⟩
  | probing t =>
      cases hprobe : replies.probe i t with
      | none =>
          exact ⟨.worker i .tornDown, rfl, rfl, ⟨w, t, hw, hphase, hprobe⟩,
            by simp [System.step, hw, Worker.step, hphase, workerEffect]⟩
      | some o =>
          exact ⟨.worker i (.probed o.1), rfl, rfl, ⟨w, t, hw, hphase, by rw [hprobe]; rfl⟩,
            by simp [System.step, hw, Worker.step, hphase, workerEffect, o.2]⟩
  | emitting o =>
      rcases h.emitting_or with hclosed | hroom | ⟨hrecorder, hsome⟩
      · exact ⟨.worker i .turnedAway, rfl, rfl, trivial,
          by simp [System.step, hw, Worker.step, hphase, workerEffect, hclosed]⟩
      · exact ⟨.worker i .emitted, rfl, rfl, trivial,
          by simp [System.step, hw, Worker.step, hphase, workerEffect, Channel.push?, hroom]⟩
      · exact h.recorder_goesOn hrecorder (.inl hsome)
  | offering =>
      exact ⟨.worker i (.offered false), rfl, rfl, trivial,
        by simp [System.step, hw, Worker.step, hphase, workerEffect, offerReport]⟩
  | reporting =>
      refine h.reporting_goesOn w.pending fun accepted reports hreports => ?_
      exact ⟨.worker i (.reported accepted), rfl, rfl, trivial,
        by simp [System.step, hw, Worker.step, hphase, workerEffect, hreports]⟩
  | ended | tornDown => simp [Worker.isGone, hphase] at hthere

/-- **The pool goes on** when its workers are gone. -/
theorem Wired.pool_goesOn (h : s.Wired) (hworkers : s.workersGone)
    (hthere : s.pool.hasEnded = false) (replies : Replies) : ∃ e, s.GoesOn replies (.pool e) := by
  by_cases hall : s.pool.noted.all id
  · exact ⟨.ended, rfl, rfl, trivial, by simp [System.step, Pool.step, hall, hthere]⟩
  · obtain ⟨isNoted, hmem, hnoted⟩ := List.all_eq_false.1 (Bool.eq_false_iff.2 hall)
    obtain ⟨i, hlt, rfl⟩ := List.getElem_of_mem hmem
    have hnoted : s.pool.noted[i]? = some false := by
      rw [List.getElem?_eq_getElem hlt]
      simpa using hnoted
    have hworker : i < s.workers.length := h.noted ▸ hlt
    have hgone := List.all_eq_true.1 hworkers _ (List.getElem_mem hworker)
    refine ⟨.noted i, rfl, rfl, trivial, ?_⟩
    simp [System.step, Pool.step, List.getElem?_eq_getElem hworker, hnoted, hgone]

/-- All stages are in the list when they are gone, each of them once. -/
theorem Wired.length_ended (h : s.Wired) (hsupervised : s.Supervised)
    (hgone : ∀ stage, (s.result? stage).isSome) : s.ended.length = Supervisor.stageCount := by
  have hall : [.loader, .probe, .recorder] ⊆ s.ended.map (·.1) := by
    intro stage _
    obtain ⟨result, hmem⟩ := h.listed stage (hgone stage)
    exact List.mem_map.2 ⟨_, hmem, rfl⟩
  have hleast := (List.subperm_of_subset (by decide) hall).length_le
  have hmost := Supervisor.length_le_of_nodup hsupervised.once
  rw [List.length_map] at hleast hmost
  exact Nat.le_antisymm hmost hleast

/-- A failure to publish, a signal to give and a stage to note are for the supervisor alone. -/
theorem supervisor_goesOn_of_pending (replies : Replies)
    (hpending : s.supervisor.phase = .publishing ∨ s.supervisor.phase = .alarming ∨
      s.supervisor.phase = .watching ∧ s.supervisor.noted < s.ended.length) :
    ∃ e, s.GoesOn replies (.supervisor e) := by
  rcases hpending with hphase | hphase | ⟨hphase, hless⟩
  · exact ⟨.published, rfl, rfl, trivial,
      by simp [System.step, Supervisor.step, hphase, supervisorEffect]⟩
  · exact ⟨.alarmed, rfl, rfl, trivial,
      by simp [System.step, Supervisor.step, hphase, supervisorEffect]⟩
  · refine ⟨.noted, rfl, rfl, trivial, ?_⟩
    simp [System.step, Supervisor.step, hphase, supervisorEffect, nextEnded?,
      List.getElem?_eq_getElem hless]

/-- **The supervisor goes on** when the stages are gone, or the collector does. -/
theorem Wired.supervisor_goesOn (h : s.Wired) (hsupervised : s.Supervised)
    (hgone : ∀ stage, (s.result? stage).isSome) (hworkers : s.workersGone)
    (hthere : s.supervisor.phase ≠ .closed) : s.CanGoOn replies := by
  cases hphase : s.supervisor.phase with
  | publishing =>
      obtain ⟨e, he⟩ := supervisor_goesOn_of_pending replies (.inl hphase)
      exact ⟨_, he⟩
  | alarming =>
      obtain ⟨e, he⟩ := supervisor_goesOn_of_pending replies (.inr (.inl hphase))
      exact ⟨_, he⟩
  | closing =>
      exact ⟨.supervisor .closed, rfl, rfl, trivial,
        by simp [System.step, Supervisor.step, hphase, supervisorEffect]⟩
  | closed => exact absurd hphase hthere
  | watching =>
      have hlength := h.length_ended hsupervised hgone
      rcases Nat.lt_or_eq_of_le hsupervised.notes.counted with hless | hall
      · obtain ⟨e, he⟩ := supervisor_goesOn_of_pending replies (.inr (.inr ⟨hphase, hless⟩))
        exact ⟨_, he⟩
      · cases hcollector : s.collector.isGone with
        | true =>
            refine ⟨.supervisor .concluded, rfl, rfl, trivial, ?_⟩
            simp [System.step, Supervisor.step, hphase, supervisorEffect, hall, hlength, hcollector]
        | false =>
            refine collector_goesOn hcollector ?_
            by_cases hqueue : s.reports.queue = []
            · have hloader := hgone .loader
              have hrecorder := hgone .recorder
              rw [isSome_result?] at hloader hrecorder
              exact .inr (by simp [reportsFinished, hloader, hworkers, hrecorder, hqueue])
            · exact .inl hqueue

/-- **Somebody goes on** until those who wait for the end are told: the first in the line
that is not gone, or somebody for whom that one waits. -/
theorem Wired.canGoOn (h : s.Wired) (hsupervised : s.Supervised)
    (htriggered : s.shutdown.triggered) (hthere : s.supervisor.phase ≠ .closed)
    (replies : Replies) : s.CanGoOn replies := by
  cases hloader : s.loader.isGone with
  | false => exact h.loader_goesOn htriggered hloader
  | true =>
  cases hworkers : s.workersGone with
  | false =>
      obtain ⟨w, hmem, hw⟩ := List.all_eq_false.1 hworkers
      obtain ⟨i, hi⟩ := List.getElem?_of_mem hmem
      exact h.worker_goesOn hloader hi (by simpa using hw)
  | true =>
  cases hpool : s.pool.hasEnded with
  | false =>
      obtain ⟨e, he⟩ := h.pool_goesOn hworkers hpool replies
      exact ⟨_, he⟩
  | true =>
  cases hrecorder : s.recorder.isGone with
  | false =>
      refine h.recorder_goesOn hrecorder ?_
      by_cases hqueue : s.outcomes.queue = []
      · exact .inr (by simp [outcomesFinished, hworkers, hqueue])
      · exact .inl hqueue
  | true =>
      refine h.supervisor_goesOn hsupervised (fun stage => ?_) hworkers hthere
      rw [isSome_result?]
      cases stage <;> assumption

end GoingOn

section Teardown

variable {settings : Settings} {moves more : List WatchMove}

/-- **Wherever a run leads,** no part waits in vain. -/
theorem wired_of_run (h : Run watch (start settings) moves s) : s.Wired :=
  h.invariant (wired_start settings) fun _ _ _ hnow hstep => hnow.step (watches_of_watch hstep)

/-- From the signal on, a run does no more work than there was to do. -/
theorem Wired.toDo_of_run (h : s.Wired) (hsupervised : s.Supervised)
    (htriggered : s.shutdown.triggered) (hmore : Run watch s more s') :
    s'.Wired ∧ s'.Supervised ∧ s'.shutdown.triggered ∧
      more.countP (·.isWork) + s'.toDo ≤ s.toDo := by
  induction hmore with
  | nil => exact ⟨h, hsupervised, htriggered, by simp⟩
  | @snoc more now next m _ hstep ih =>
      obtain ⟨hnow, hsupervised, htriggered, hless⟩ := ih
      have hwatches := watches_of_watch hstep
      obtain ⟨hle, hlt⟩ := hwatches.toDo hsupervised (hnow.signalled htriggered)
      refine ⟨hnow.step hwatches, hsupervised.step hwatches, hwatches.triggered htriggered, ?_⟩
      rw [List.countP_append, List.countP_singleton]
      split
      · next hwork =>
          have hless' := hlt hwork
          omega
      · omega

/-- Of the workers that wait for a target, each may take it, whichever has the channel to
itself. -/
theorem step_of_waiting {i j : Nat} {w w' : Worker} (hw : s.workers[i]? = some w)
    (hwaiting : w.phase = .waiting) (hw' : s.workers[j]? = some w')
    (hwaiting' : w'.phase = .waiting)
    (e : WorkerEvent) (h : (s.step (.worker i e)).isSome) : (s.step (.worker j e)).isSome := by
  cases e with
  | took t =>
      simp only [System.step, hw, hw', Option.bind_some, Worker.step, hwaiting, hwaiting',
        workerEffect] at h ⊢
      split at h
      · next first targets _ =>
          split at h
          · next hfirst => simp [hfirst]
          · cases h
      · cases h
  | finished =>
      simp only [System.step, hw, hw', Option.bind_some, Worker.step, hwaiting, hwaiting',
        workerEffect] at h ⊢
      split at h
      · next hfinished =>
          simp only [targetsFinished] at hfinished ⊢
          simp [hfinished]
      · cases h
  | probed | tornDown | emitted | turnedAway | offered | reported =>
      simp [System.step, hw, Worker.step, hwaiting] at h

/-- **Teardown never gets stuck.**  Let the signal be given, whatever happened before it,
with whatever stages and workers gone or broken off.  As long as those who wait for the end
are not told, somebody can do something now that is no tick, however the store and the
peers answer; and if that is a worker at the channel of targets, it may be any of those
that wait there.

There is a measure of what is to be done that every move makes less, except that the tick
that finds nothing, and who asks for an end, may leave it as it was.  So whatever happens later,
there is no more of it than this measure says; and when nothing more can be done, those who
wait are told that all has stopped or that something failed. -/
theorem teardown_never_gets_stuck (hrun : Run watch (start settings) moves s)
    (htriggered : s.shutdown.triggered) :
    (s.supervisor.verdict? = none → ∀ replies : Replies,
      ∃ m, m.isWork ∧ m.isTimed = false ∧ replies.Allow s m ∧ (s.step m).isSome) ∧
    (∀ i j w w', s.workers[i]? = some w → w.phase = .waiting →
      s.workers[j]? = some w' → w'.phase = .waiting →
      ∀ e, (s.step (.worker i e)).isSome → (s.step (.worker j e)).isSome) ∧
    (∀ m s', s.watch m = some s' → s'.toDo ≤ s.toDo ∧ (m.isWork → s'.toDo < s.toDo)) ∧
    ∀ more s', Run watch s more s' →
      more.countP (·.isWork) + s'.toDo ≤ s.toDo ∧
      ((∃ replies : Replies, ∀ m, m.isWork → m.isTimed = false → replies.Allow s' m →
          s'.step m = none) →
        ∃ verdict, s'.supervisor.verdict? = some verdict ∧ verdict.isTerminal) := by
  have hwired := wired_of_run hrun
  have hsupervised := supervised_of_run hrun
  have hgoesOn {s : System} (hwired : s.Wired) (hsupervised : s.Supervised)
      (htriggered : s.shutdown.triggered) (hwaiting : s.supervisor.verdict? = none)
      (replies : Replies) : s.CanGoOn replies := by
    refine hwired.canGoOn hsupervised htriggered (fun hclosed => ?_) replies
    rw [Supervisor.verdict?, if_pos hclosed] at hwaiting
    cases hwaiting
  refine ⟨fun hwaiting replies => ?_, fun i j w w' hw hwaiting hw' hwaiting' e =>
    step_of_waiting hw hwaiting hw' hwaiting' e, fun m s' hstep => ?_, fun more s' hmore => ?_⟩
  · obtain ⟨m, hm⟩ := hgoesOn hwired hsupervised htriggered hwaiting replies
    exact ⟨m, hm.work, hm.untimed, hm.allowed, hm.enabled⟩
  · exact (watches_of_watch hstep).toDo hsupervised (hwired.signalled htriggered)
  · obtain ⟨hwired', hsupervised', htriggered', hless⟩ :=
      hwired.toDo_of_run hsupervised htriggered hmore
    refine ⟨hless, fun ⟨replies, hstuck⟩ => ?_⟩
    cases hverdict : s'.supervisor.verdict? with
    | some verdict => exact ⟨verdict, rfl, (hsupervised'.of_verdict hverdict).1⟩
    | none =>
        obtain ⟨m, hm⟩ := hgoesOn hwired' hsupervised' htriggered' hverdict replies
        have henabled := hm.enabled
        rw [hstuck m hm.work hm.untimed hm.allowed] at henabled
        cases henabled

/-- The recorder breaks off, and the supervisor gives the signal.  Something can be done
however others answer; and when the loader, the one worker, the pool, the collector and the
supervisor have done what they had to do, who waits is told of the failure. -/
theorem teardown_never_gets_stuck_recorder_breaks_off :
    ∃ (settings : Settings) (moves rest : List WatchMove) (s last : System),
      Run watch (start settings) moves s ∧ s.shutdown.triggered ∧
      (∀ replies : Replies,
        ∃ m, m.isWork ∧ m.isTimed = false ∧ replies.Allow s m ∧ (s.step m).isSome) ∧
      Run watch s rest last ∧ last.supervisor.verdict? = some .failed ∧
      rest.countP (·.isWork) = 12 ∧ rest.countP (·.isWork) + last.toDo ≤ s.toDo := by
  let e : PipelineError := .aborted .recorder "stalled"
  let settings : Settings := { probe := { concurrency := 1 } }
  let moves : List WatchMove :=
    [.brokeOff .recorder (.error e), .move (.supervisor .noted), .move (.supervisor .published),
      .move (.supervisor .alarmed)]
  let rest : List WatchMove := [.move (.loader .signalled), .move .ask,
    .move (.loader (.reported true)), .move (.worker 0 .finished), .move .signal,
    .move (.worker 0 (.reported true)), .move (.pool (.noted 0)), .move (.pool .ended),
    .move (.supervisor .noted), .move (.supervisor .noted), .move (.collector .begun),
    .move (.collector .finished), .move (.supervisor .concluded), .move (.supervisor .closed)]
  have hchecked : (moves.foldlM watch (start settings)).any fun s =>
      s.shutdown.triggered ∧ s.supervisor.verdict? = none ∧
        (rest.foldlM watch s).any (·.supervisor.verdict? = some .failed) := by decide
  obtain ⟨s, hrun, hchecked⟩ := Run.exists_of_any hchecked
  obtain ⟨htriggered, hwaiting, hchecked⟩ := of_decide_eq_true hchecked
  obtain ⟨last, hrest, hverdict⟩ := Run.exists_of_any hchecked
  obtain ⟨hgoesOn, _, _, hlater⟩ := teardown_never_gets_stuck hrun htriggered
  exact ⟨settings, moves, rest, s, last, hrun, htriggered, hgoesOn hwaiting, hrest,
    of_decide_eq_true hverdict, by decide, (hlater rest last hrest).1⟩

end Teardown

end System

end PeerWatch
