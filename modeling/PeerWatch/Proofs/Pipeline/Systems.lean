import PeerWatch.Proofs.Pipeline.Loaders
import PeerWatch.Proofs.Pipeline.Recorders
import PeerWatch.Proofs.Pipeline.Workers

/-!
# The pipeline and its chronicle

A move of the pipeline is an event at one of its parts, and what the event does
to the rest is to a channel, to the signal or to the list of stages that have
ended.

* `Collector.Moves`, `Supervisor.Moves` — all that can happen to these two;
* `System.Moves`, `System.moves_of_step` — all that can happen to a pipeline;
* `System.loader_step_of_moves` — what can happen to its loader does;
* `Chronicle`, `System.chronicled` — what its parts have done.
-/

namespace PeerWatch

namespace Collector

variable {c c' : Collector} {e : CollectorEvent}

/-- All that can happen to a collector. -/
inductive Moves (c : Collector) : CollectorEvent → Collector → Prop
  | begun (h : c.phase = .beginning) (hinterval : 0 < c.interval) :
    Moves c .begun { c with phase := .collecting }
  | tornDown (h : c.phase = .beginning) (hinterval : c.interval = 0) :
    Moves c .tornDown { c with phase := .tornDown }
  | took (h : c.phase = .collecting) (r : Report) :
    Moves c (.took r) { c with totals := c.totals.apply r }
  | finished (h : c.phase = .collecting) : Moves c .finished { c with phase := .ended }

/-- An event of a collector is one of the ways in which it can go. -/
theorem moves_of_step (h : c.step e = some c') : c.Moves e c' := by
  unfold step at h
  split at h
  case h_1 hphase =>
    split at h
    · next hinterval =>
        obtain rfl := Option.some.inj h
        exact .begun hphase hinterval
    · cases h
  case h_2 hphase =>
    split at h
    · cases h
    · next hinterval =>
        obtain rfl := Option.some.inj h
        exact .tornDown hphase (Nat.eq_zero_of_not_pos hinterval)
  case h_3 r hphase =>
    obtain rfl := Option.some.inj h
    exact .took hphase r
  case h_4 hphase =>
    obtain rfl := Option.some.inj h
    exact .finished hphase
  case h_5 => cases h

/-- A collector that is gone does nothing more. -/
theorem Moves.not_gone (h : c.Moves e c') : c.isGone = false := by
  cases h <;> simp [isGone, *]

end Collector

namespace Supervisor

variable {v v' : Supervisor} {next : Option (Stage × Except PipelineError Unit)}
variable {e : SupervisorEvent}

/-- All that can happen to a supervisor. -/
inductive Moves (v : Supervisor) (next : Option (Stage × Except PipelineError Unit)) :
    SupervisorEvent → Supervisor → Prop
  | noted (h : v.phase = .watching) {stage : Stage} {result : Except PipelineError Unit}
    (hnext : next = some (stage, result)) : Moves v next .noted (v.note stage result)
  | published (h : v.phase = .publishing) :
    Moves v next .published { v with phase := .alarming, state := .failed }
  | alarmed (h : v.phase = .alarming) : Moves v next .alarmed { v with phase := .watching }
  | concluded (h : v.phase = .watching) (hnoted : v.noted = stageCount) :
    Moves v next .concluded { v with phase := .closing, state := v.finalState }
  | closed (h : v.phase = .closing) : Moves v next .closed { v with phase := .closed }

/-- An event of a supervisor is one of the ways in which it can go. -/
theorem moves_of_step (h : v.step next e = some v') : v.Moves next e v' := by
  unfold step at h
  split at h
  case h_1 stage result hphase =>
    obtain rfl := Option.some.inj h
    exact .noted hphase rfl
  case h_2 hphase =>
    obtain rfl := Option.some.inj h
    exact .published hphase
  case h_3 hphase =>
    obtain rfl := Option.some.inj h
    exact .alarmed hphase
  case h_4 hphase =>
    split at h
    · next hnoted =>
        obtain rfl := Option.some.inj h
        exact .concluded hphase hnoted
    · cases h
  case h_5 hphase =>
    obtain rfl := Option.some.inj h
    exact .closed hphase
  case h_6 => cases h

end Supervisor

/-- A recorder that is gone does nothing more. -/
theorem Recorder.Moves.not_gone {r r' : Recorder} {e : RecorderEvent} (h : r.Moves e r') :
    r.isGone = false := by
  cases h <;> simp [Recorder.isGone, *]

namespace Channel

variable {α : Type} {c c' : Channel α} {message : α}

/-- What is put in comes last. -/
theorem push?_eq_some_iff : c.push? message = some c' ↔
    0 < c.room ∧ c' = { c with queue := c.queue ++ [message] } := by
  unfold push?
  split
  · next hroom => simp [hroom, eq_comm]
  · next hroom => simp [hroom]

/-- What is taken out was the first. -/
theorem pop?_eq_some_iff : c.pop? = some (message, c') ↔
    ∃ rest, c.queue = message :: rest ∧ c' = { c with queue := rest } := by
  unfold pop?
  cases hqueue : c.queue with
  | nil => simp
  | cons first rest =>
      simp only [Option.some.injEq, Prod.mk.injEq, List.cons.injEq]
      constructor
      · rintro ⟨rfl, rfl⟩
        exact ⟨rest, ⟨rfl, rfl⟩, rfl⟩
      · rintro ⟨_, ⟨rfl, rfl⟩, rfl⟩
        exact ⟨rfl, rfl⟩

/-- There is room in an open channel only. -/
theorem isOpen_of_room (h : 0 < c.room) : c.isOpen := by
  unfold room at h
  split at h
  · next hopen => exact hopen
  · cases h

end Channel

namespace System

variable {s s' : System} {m : Move}

/-- The stage that has ended, with its result, if there is one. -/
def endings (stage : Stage) (result : Option (Except PipelineError Unit)) :
    List (Stage × Except PipelineError Unit) :=
  result.toList.map fun result => (stage, result)

/-- A stage that ends is noted behind those that have. -/
theorem endStage_eq (s : System) (stage : Stage) (result : Option (Except PipelineError Unit)) :
    s.endStage stage result = { s with ended := s.ended ++ endings stage result } := by
  cases result with
  | none =>
      show s = { s with ended := s.ended ++ [] }
      rw [List.append_nil]
  | some result => rfl

/-- An offer that is not accepted changes nothing. -/
theorem offerReport_false (reports : Channel Report) (pending : Report) :
    offerReport reports pending false = some reports := if_pos (Bool.or_true _)

/-- All that can happen to a pipeline. -/
inductive Moves (s : System) : Move → System → Prop
  | looked {l : Loader} (h : s.loader.Moves .looked l) (hsignal : s.shutdown.waitsFor 0 = false) :
    Moves s (.loader .looked) { s with loader := l }
  | signalled {l : Loader} (h : s.loader.Moves .signalled l) (hsignal : s.shutdown.waitsFor 0) :
    Moves s (.loader .signalled) { s with loader := l, shutdown := (s.shutdown.receive 0).1 }
  | claimed {l : Loader} {batch : List Target} (h : s.loader.Moves (.claimed batch) l) :
    Moves s (.loader (.claimed batch)) { s with loader := l }
  | claimFailed {l : Loader} {e : StoreError} (h : s.loader.Moves (.claimFailed e) l) :
    Moves s (.loader (.claimFailed e)) { s with loader := l }
  | rested {l : Loader} (h : s.loader.Moves .rested l) :
    Moves s (.loader .rested) { s with loader := l }
  | loaderOffered {l : Loader} {accepted : Bool} {reports : Channel Report}
    (h : s.loader.Moves (.offered accepted) l)
    (hreports : offerReport s.reports s.loader.pending accepted = some reports) :
    Moves s (.loader (.offered accepted)) { s with loader := l, reports := reports }
  | handed {l : Loader} {t : Target} (h : s.loader.Moves .handed l)
    (ht : s.loader.next? = some t) (hroom : 0 < s.targets.room) :
    Moves s (.loader .handed)
      { s with loader := l, targets := { s.targets with queue := s.targets.queue ++ [t] } }
  | loaderTurnedAway {l : Loader} (h : s.loader.Moves .turnedAway l)
    (hclosed : s.targets.isOpen = false) :
    Moves s (.loader .turnedAway) { s with loader := l }
  | loaderReported {l : Loader} {accepted : Bool} {reports : Channel Report}
    (h : s.loader.Moves (.reported accepted) l)
    (hreports : lastReport s.reports s.loader.pending accepted = some reports) :
    Moves s (.loader (.reported accepted))
      { s with loader := l, reports := reports, ended := s.ended ++ endings .loader l.result? }
  | loaderTorn {l : Loader} (h : s.loader.Moves .tornDown l) :
    Moves s (.loader .tornDown)
      { s with loader := l, ended := s.ended ++ endings .loader l.result? }
  | took {i : Nat} {w w' : Worker} {t : Target} {rest : List Target}
    (hw : s.workers[i]? = some w) (h : w.Moves (.took t) w') (hqueue : s.targets.queue = t :: rest) :
    Moves s (.worker i (.took t))
      { s with workers := s.workers.set i w', targets := { s.targets with queue := rest } }
  | workerFinished {i : Nat} {w w' : Worker} (hw : s.workers[i]? = some w)
    (h : w.Moves .finished w') (hfinished : s.targetsFinished) :
    Moves s (.worker i .finished) { s with workers := s.workers.set i w' }
  | probed {i : Nat} {w w' : Worker} {o : Outcome} (hw : s.workers[i]? = some w)
    (h : w.Moves (.probed o) w') :
    Moves s (.worker i (.probed o)) { s with workers := s.workers.set i w' }
  | workerTorn {i : Nat} {w w' : Worker} (hw : s.workers[i]? = some w)
    (h : w.Moves .tornDown w') :
    Moves s (.worker i .tornDown) { s with workers := s.workers.set i w' }
  | emitted {i : Nat} {w w' : Worker} {o : Outcome} (hw : s.workers[i]? = some w)
    (h : w.Moves .emitted w') (ho : w.phase = .emitting o) (hroom : 0 < s.outcomes.room) :
    Moves s (.worker i .emitted)
      { s with workers := s.workers.set i w'
               outcomes := { s.outcomes with queue := s.outcomes.queue ++ [o] } }
  | workerTurnedAway {i : Nat} {w w' : Worker} (hw : s.workers[i]? = some w)
    (h : w.Moves .turnedAway w') (hclosed : s.outcomes.isOpen = false) :
    Moves s (.worker i .turnedAway) { s with workers := s.workers.set i w' }
  | workerOffered {i : Nat} {w w' : Worker} {accepted : Bool} {reports : Channel Report}
    (hw : s.workers[i]? = some w) (h : w.Moves (.offered accepted) w')
    (hreports : offerReport s.reports w.pending accepted = some reports) :
    Moves s (.worker i (.offered accepted))
      { s with workers := s.workers.set i w', reports := reports }
  | workerReported {i : Nat} {w w' : Worker} {accepted : Bool} {reports : Channel Report}
    (hw : s.workers[i]? = some w) (h : w.Moves (.reported accepted) w')
    (hreports : lastReport s.reports w.pending accepted = some reports) :
    Moves s (.worker i (.reported accepted))
      { s with workers := s.workers.set i w', reports := reports }
  | poolNoted {i : Nat} {p : Pool} (h : s.pool.Moves s.workers (.noted i) p) :
    Moves s (.pool (.noted i)) { s with pool := p }
  | poolEnded {p : Pool} (h : s.pool.Moves s.workers .ended p) :
    Moves s (.pool .ended)
      { s with pool := p, targets := s.targets.close
               ended := s.ended ++ endings .probe (some p.result) }
  | recorderBegun {r : Recorder} (h : s.recorder.Moves .begun r) :
    Moves s (.recorder .begun) { s with recorder := r }
  | received {r : Recorder} {o : Outcome} {rest : List Outcome}
    (h : s.recorder.Moves (.received o) r) (hqueue : s.outcomes.queue = o :: rest) :
    Moves s (.recorder (.received o))
      { s with recorder := r, outcomes := { s.outcomes with queue := rest } }
  | ticked {r : Recorder} (h : s.recorder.Moves .ticked r) :
    Moves s (.recorder .ticked) { s with recorder := r }
  | idled {r : Recorder} {accepted : Bool} {reports : Channel Report}
    (h : s.recorder.Moves (.idled accepted) r)
    (hreports : offerReport s.reports s.recorder.pending accepted = some reports) :
    Moves s (.recorder (.idled accepted)) { s with recorder := r, reports := reports }
  | recorderFinished {r : Recorder} (h : s.recorder.Moves .finished r)
    (hfinished : s.outcomesFinished) : Moves s (.recorder .finished) { s with recorder := r }
  | committed {r : Recorder} (h : s.recorder.Moves .committed r) :
    Moves s (.recorder .committed) { s with recorder := r }
  | commitFailed {r : Recorder} {e : StoreError} (h : s.recorder.Moves (.commitFailed e) r) :
    Moves s (.recorder (.commitFailed e)) { s with recorder := r }
  | recorderOffered {r : Recorder} {accepted : Bool} {reports : Channel Report}
    (h : s.recorder.Moves (.offered accepted) r)
    (hreports : offerReport s.reports s.recorder.pending accepted = some reports) :
    Moves s (.recorder (.offered accepted)) { s with recorder := r, reports := reports }
  | recorderReported {r : Recorder} {accepted : Bool} {reports : Channel Report}
    (h : s.recorder.Moves (.reported accepted) r)
    (hreports : lastReport s.reports s.recorder.pending accepted = some reports) :
    Moves s (.recorder (.reported accepted))
      { s with recorder := r, reports := reports, outcomes := s.outcomes.close
               ended := s.ended ++ endings .recorder r.result? }
  | recorderTorn {r : Recorder} (h : s.recorder.Moves .tornDown r) :
    Moves s (.recorder .tornDown)
      { s with recorder := r, outcomes := s.outcomes.close
               ended := s.ended ++ endings .recorder r.result? }
  | collectorBegun {c : Collector} (h : s.collector.Moves .begun c) :
    Moves s (.collector .begun) { s with collector := c }
  | collectorTook {c : Collector} {report : Report} {rest : List Report}
    (h : s.collector.Moves (.took report) c) (hqueue : s.reports.queue = report :: rest) :
    Moves s (.collector (.took report))
      { s with collector := c, reports := { s.reports with queue := rest } }
  | collectorFinished {c : Collector} (h : s.collector.Moves .finished c)
    (hfinished : s.reportsFinished) :
    Moves s (.collector .finished) { s with collector := c, reports := s.reports.close }
  | collectorTorn {c : Collector} (h : s.collector.Moves .tornDown c) :
    Moves s (.collector .tornDown) { s with collector := c, reports := s.reports.close }
  | stageNoted {v : Supervisor} (h : s.supervisor.Moves s.nextEnded? .noted v) :
    Moves s (.supervisor .noted) { s with supervisor := v }
  | published {v : Supervisor} (h : s.supervisor.Moves s.nextEnded? .published v) :
    Moves s (.supervisor .published) { s with supervisor := v }
  | alarmed {v : Supervisor} (h : s.supervisor.Moves s.nextEnded? .alarmed v) :
    Moves s (.supervisor .alarmed)
      { s with supervisor := v, shutdown := s.shutdown.trigger.1 }
  | concluded {v : Supervisor} (h : s.supervisor.Moves s.nextEnded? .concluded v)
    (hgone : s.collector.isGone) : Moves s (.supervisor .concluded) { s with supervisor := v }
  | closed {v : Supervisor} (h : s.supervisor.Moves s.nextEnded? .closed v) :
    Moves s (.supervisor .closed) { s with supervisor := v }
  | asked : Moves s .ask { s with supervisor := s.supervisor.asked, asking := s.asking + 1 }
  | gaveSignal (hasking : 0 < s.asking) :
    Moves s .signal { s with shutdown := s.shutdown.trigger.1, asking := s.asking - 1 }

theorem loader_moves_of_step {e : LoaderEvent} (h : s.step (.loader e) = some s') :
    s.Moves (.loader e) s' := by
  obtain ⟨l, hl, heffect⟩ := Option.bind_eq_some_iff.1 h
  have hmoves := Loader.moves_of_step hl
  cases e with
  | looked =>
      simp only [loaderEffect] at heffect
      split at heffect
      · cases heffect
      · next hsignal =>
          obtain rfl := Option.some.inj heffect
          exact .looked hmoves (Bool.eq_false_iff.2 hsignal)
  | signalled =>
      simp only [loaderEffect] at heffect
      split at heffect
      · next hgot =>
          obtain rfl := Option.some.inj heffect
          exact .signalled hmoves ((Shutdown.receive_snd _ _).symm.trans hgot)
      · cases heffect
  | claimed batch =>
      obtain rfl := Option.some.inj heffect
      exact .claimed hmoves
  | claimFailed e =>
      obtain rfl := Option.some.inj heffect
      exact .claimFailed hmoves
  | offered accepted =>
      obtain ⟨reports, hreports, rfl⟩ := Option.map_eq_some_iff.1 heffect
      exact .loaderOffered hmoves hreports
  | handed =>
      obtain ⟨t, ht, heffect⟩ := Option.bind_eq_some_iff.1 heffect
      obtain ⟨targets, htargets, rfl⟩ := Option.map_eq_some_iff.1 heffect
      obtain ⟨hroom, rfl⟩ := Channel.push?_eq_some_iff.1 htargets
      exact .handed hmoves ht hroom
  | turnedAway =>
      simp only [loaderEffect] at heffect
      split at heffect
      · cases heffect
      · next hclosed =>
          obtain rfl := Option.some.inj heffect
          exact .loaderTurnedAway hmoves (Bool.eq_false_iff.2 hclosed)
  | rested =>
      obtain rfl := Option.some.inj heffect
      exact .rested hmoves
  | reported accepted =>
      obtain ⟨reports, hreports, rfl⟩ := Option.map_eq_some_iff.1 heffect
      rw [endStage_eq]
      exact .loaderReported hmoves hreports
  | tornDown =>
      obtain rfl := Option.some.inj heffect
      rw [endStage_eq]
      exact .loaderTorn hmoves

/-- An event that can happen to the loader leaves it to the rest of the pipeline whether it
happens. -/
theorem step_loader {e : LoaderEvent} {l : Loader} (h : s.loader.Moves e l) :
    s.step (.loader e) = { s with loader := l }.loaderEffect s.loader e := by
  show (s.loader.step e).bind _ = _
  rw [Loader.step_of_moves h, Option.bind_some]

/-- A listed event at the loader can happen, and does what the list says. -/
theorem loader_step_of_moves {e : LoaderEvent} (h : s.Moves (.loader e) s') :
    s.step (.loader e) = some s' := by
  cases h with
  | looked hmoves hsignal =>
      rw [step_loader hmoves]
      exact if_neg (Bool.eq_false_iff.1 hsignal)
  | signalled hmoves hsignal =>
      rw [step_loader hmoves]
      exact if_pos ((Shutdown.receive_snd _ _).trans hsignal)
  | claimed hmoves | claimFailed hmoves | rested hmoves => exact step_loader hmoves
  | loaderOffered hmoves hreports =>
      rw [step_loader hmoves]
      exact Option.map_eq_some_iff.2 ⟨_, hreports, rfl⟩
  | handed hmoves ht hroom =>
      rw [step_loader hmoves]
      exact Option.bind_eq_some_iff.2
        ⟨_, ht, Option.map_eq_some_iff.2 ⟨_, Channel.push?_eq_some_iff.2 ⟨hroom, rfl⟩, rfl⟩⟩
  | loaderTurnedAway hmoves hclosed =>
      rw [step_loader hmoves]
      exact if_neg (Bool.eq_false_iff.1 hclosed)
  | loaderReported hmoves hreports =>
      rw [step_loader hmoves]
      exact Option.map_eq_some_iff.2 ⟨_, hreports, endStage_eq _ _ _⟩
  | loaderTorn hmoves =>
      rw [step_loader hmoves]
      exact congrArg some (endStage_eq _ _ _)

theorem isSome_of_moves {e : LoaderEvent} (h : s.Moves (.loader e) s') :
    (s.step (.loader e)).isSome := Option.isSome_of_eq_some (loader_step_of_moves h)

theorem worker_moves_of_step {i : Nat} {e : WorkerEvent} (h : s.step (.worker i e) = some s') :
    s.Moves (.worker i e) s' := by
  obtain ⟨w, hw, h⟩ := Option.bind_eq_some_iff.1 h
  obtain ⟨w', hw', heffect⟩ := Option.bind_eq_some_iff.1 h
  have hmoves := Worker.moves_of_step hw'
  cases e with
  | took t =>
      simp only [workerEffect] at heffect
      split at heffect
      · next first targets htargets =>
          obtain ⟨rest, hqueue, rfl⟩ := Channel.pop?_eq_some_iff.1 htargets
          split at heffect
          · next hfirst =>
              subst hfirst
              obtain rfl := Option.some.inj heffect
              exact .took hw hmoves hqueue
          · cases heffect
      · cases heffect
  | finished =>
      simp only [workerEffect] at heffect
      split at heffect
      · next hfinished =>
          obtain rfl := Option.some.inj heffect
          exact .workerFinished hw hmoves hfinished
      · cases heffect
  | probed o =>
      obtain rfl := Option.some.inj heffect
      exact .probed hw hmoves
  | tornDown =>
      obtain rfl := Option.some.inj heffect
      exact .workerTorn hw hmoves
  | emitted =>
      simp only [workerEffect] at heffect
      split at heffect
      · next o ho =>
          obtain ⟨outcomes, houtcomes, rfl⟩ := Option.map_eq_some_iff.1 heffect
          obtain ⟨hroom, rfl⟩ := Channel.push?_eq_some_iff.1 houtcomes
          exact .emitted hw hmoves ho hroom
      · cases heffect
  | turnedAway =>
      simp only [workerEffect] at heffect
      split at heffect
      · cases heffect
      · next hclosed =>
          obtain rfl := Option.some.inj heffect
          exact .workerTurnedAway hw hmoves (Bool.eq_false_iff.2 hclosed)
  | offered accepted =>
      obtain ⟨reports, hreports, rfl⟩ := Option.map_eq_some_iff.1 heffect
      exact .workerOffered hw hmoves hreports
  | reported accepted =>
      obtain ⟨reports, hreports, rfl⟩ := Option.map_eq_some_iff.1 heffect
      exact .workerReported hw hmoves hreports

theorem pool_moves_of_step {e : PoolEvent} (h : s.step (.pool e) = some s') :
    s.Moves (.pool e) s' := by
  obtain ⟨p, hp, rfl⟩ := Option.map_eq_some_iff.1 h
  have hmoves := Pool.moves_of_step hp
  cases e with
  | noted i => exact .poolNoted hmoves
  | ended => exact .poolEnded hmoves

theorem recorder_moves_of_step {e : RecorderEvent} (h : s.step (.recorder e) = some s') :
    s.Moves (.recorder e) s' := by
  obtain ⟨r, hr, heffect⟩ := Option.bind_eq_some_iff.1 h
  have hmoves := Recorder.step_eq_some_iff.1 hr
  cases e with
  | begun =>
      obtain rfl := Option.some.inj heffect
      exact .recorderBegun hmoves
  | received o =>
      simp only [recorderEffect] at heffect
      split at heffect
      · next first outcomes houtcomes =>
          obtain ⟨rest, hqueue, rfl⟩ := Channel.pop?_eq_some_iff.1 houtcomes
          split at heffect
          · next hfirst =>
              subst hfirst
              obtain rfl := Option.some.inj heffect
              exact .received hmoves hqueue
          · cases heffect
      · cases heffect
  | ticked =>
      obtain rfl := Option.some.inj heffect
      exact .ticked hmoves
  | idled accepted =>
      obtain ⟨reports, hreports, rfl⟩ := Option.map_eq_some_iff.1 heffect
      exact .idled hmoves hreports
  | finished =>
      simp only [recorderEffect] at heffect
      split at heffect
      · next hfinished =>
          obtain rfl := Option.some.inj heffect
          exact .recorderFinished hmoves hfinished
      · cases heffect
  | committed =>
      obtain rfl := Option.some.inj heffect
      exact .committed hmoves
  | commitFailed e =>
      obtain rfl := Option.some.inj heffect
      exact .commitFailed hmoves
  | offered accepted =>
      obtain ⟨reports, hreports, rfl⟩ := Option.map_eq_some_iff.1 heffect
      exact .recorderOffered hmoves hreports
  | reported accepted =>
      obtain ⟨reports, hreports, rfl⟩ := Option.map_eq_some_iff.1 heffect
      rw [endStage_eq]
      exact .recorderReported hmoves hreports
  | tornDown =>
      obtain rfl := Option.some.inj heffect
      rw [endStage_eq]
      exact .recorderTorn hmoves

theorem collector_moves_of_step {e : CollectorEvent} (h : s.step (.collector e) = some s') :
    s.Moves (.collector e) s' := by
  obtain ⟨c, hc, heffect⟩ := Option.bind_eq_some_iff.1 h
  have hmoves := Collector.moves_of_step hc
  cases e with
  | begun =>
      obtain rfl := Option.some.inj heffect
      exact .collectorBegun hmoves
  | took report =>
      simp only [collectorEffect] at heffect
      split at heffect
      · next first reports hreports =>
          obtain ⟨rest, hqueue, rfl⟩ := Channel.pop?_eq_some_iff.1 hreports
          split at heffect
          · next hfirst =>
              subst hfirst
              obtain rfl := Option.some.inj heffect
              exact .collectorTook hmoves hqueue
          · cases heffect
      · cases heffect
  | finished =>
      simp only [collectorEffect] at heffect
      split at heffect
      · next hfinished =>
          obtain rfl := Option.some.inj heffect
          exact .collectorFinished hmoves hfinished
      · cases heffect
  | tornDown =>
      obtain rfl := Option.some.inj heffect
      exact .collectorTorn hmoves

theorem supervisor_moves_of_step {e : SupervisorEvent} (h : s.step (.supervisor e) = some s') :
    s.Moves (.supervisor e) s' := by
  obtain ⟨v, hv, heffect⟩ := Option.bind_eq_some_iff.1 h
  have hmoves := Supervisor.moves_of_step hv
  cases e with
  | noted =>
      obtain rfl := Option.some.inj heffect
      exact .stageNoted hmoves
  | published =>
      obtain rfl := Option.some.inj heffect
      exact .published hmoves
  | alarmed =>
      obtain rfl := Option.some.inj heffect
      exact .alarmed hmoves
  | concluded =>
      simp only [supervisorEffect] at heffect
      split at heffect
      · next hgone =>
          obtain rfl := Option.some.inj heffect
          exact .concluded hmoves hgone
      · cases heffect
  | closed =>
      obtain rfl := Option.some.inj heffect
      exact .closed hmoves

/-- A step of the pipeline is one of its moves. -/
theorem moves_of_step (h : s.step m = some s') : s.Moves m s' := by
  cases m with
  | loader e => exact loader_moves_of_step h
  | worker i e => exact worker_moves_of_step h
  | pool e => exact pool_moves_of_step h
  | recorder e => exact recorder_moves_of_step h
  | collector e => exact collector_moves_of_step h
  | supervisor e => exact supervisor_moves_of_step h
  | ask =>
      obtain rfl := Option.some.inj h
      exact .asked
  | signal =>
      simp only [step] at h
      split at h
      · next hasking =>
          obtain rfl := Option.some.inj h
          exact .gaveSignal hasking
      · cases h

end System

/-- What the parts of a pipeline have done. -/
structure Chronicle where
  loader : LoaderLog
  /-- What the workers took, probed and handed on, each with the worker's number. -/
  taken : List (Nat × Target)
  probed : List (Nat × Outcome)
  emitted : List (Nat × Outcome)
  recorder : RecorderLog
deriving DecidableEq

namespace Chronicle

def empty : Chronicle := ⟨.empty, [], [], [], .empty⟩

/-- One more event at a worker. -/
def noteWorker (log : Chronicle) (i : Nat) (w : Worker) : WorkerEvent → Chronicle
  | .took t => { log with taken := log.taken ++ [(i, t)] }
  | .probed o => { log with probed := log.probed ++ [(i, o)] }
  | .emitted => { log with emitted := log.emitted ++ w.toEmit.map fun o => (i, o) }
  | _ => log

/-- One more move of a pipeline. -/
def note (log : Chronicle) (s : System) : Move → Chronicle
  | .loader e => { log with loader := log.loader.note s.loader e }
  | .worker i e => (s.workers[i]?).elim log fun w => log.noteWorker i w e
  | .recorder e => { log with recorder := log.recorder.note s.recorder e }
  | _ => log

/-- Of what the workers did, what one of them did. -/
def doneBy {α : Type} (i : Nat) (done : List (Nat × α)) : List α :=
  (done.filter (·.1 = i)).map (·.2)

/-- What one of the workers did. -/
def worker (log : Chronicle) (i : Nat) : WorkerLog :=
  ⟨doneBy i log.taken, doneBy i log.probed, doneBy i log.emitted⟩

theorem doneBy_append {α : Type} (i : Nat) (done more : List (Nat × α)) :
    doneBy i (done ++ more) = doneBy i done ++ doneBy i more := by
  simp [doneBy]

/-- What one alone did is done by that one. -/
theorem doneBy_self {α : Type} (i : Nat) (done : List α) :
    doneBy i (done.map fun x => (i, x)) = done := by
  simp [doneBy, List.filter_map, Function.comp_def]

/-- What one alone did is done by nobody else. -/
theorem doneBy_ne {α : Type} {i j : Nat} (h : i ≠ j) (done : List α) :
    doneBy j (done.map fun x => (i, x)) = [] := by
  simp [doneBy, List.filter_map, Function.comp_def, h]

/-- What a worker did is noted as its own. -/
theorem worker_noteWorker (log : Chronicle) (i : Nat) (w : Worker) (e : WorkerEvent) :
    (log.noteWorker i w e).worker i = (log.worker i).note w e := by
  cases e with
  | took t =>
      show WorkerLog.mk (doneBy i (log.taken ++ [t].map fun x => (i, x))) _ _ = _
      rw [doneBy_append, doneBy_self]
      rfl
  | probed o =>
      show WorkerLog.mk _ (doneBy i (log.probed ++ [o].map fun x => (i, x))) _ = _
      rw [doneBy_append, doneBy_self]
      rfl
  | emitted =>
      show WorkerLog.mk _ _ (doneBy i (log.emitted ++ w.toEmit.map fun x => (i, x))) = _
      rw [doneBy_append, doneBy_self]
      rfl
  | finished | tornDown | turnedAway | offered | reported => rfl

/-- What a worker did is not noted as another's. -/
theorem worker_noteWorker_ne (log : Chronicle) {i j : Nat} (h : i ≠ j) (w : Worker)
    (e : WorkerEvent) : (log.noteWorker i w e).worker j = log.worker j := by
  cases e with
  | took t =>
      show WorkerLog.mk (doneBy j (log.taken ++ [t].map fun x => (i, x))) _ _ = _
      rw [doneBy_append, doneBy_ne h, List.append_nil]
      rfl
  | probed o =>
      show WorkerLog.mk _ (doneBy j (log.probed ++ [o].map fun x => (i, x))) _ = _
      rw [doneBy_append, doneBy_ne h, List.append_nil]
      rfl
  | emitted =>
      show WorkerLog.mk _ _ (doneBy j (log.emitted ++ w.toEmit.map fun x => (i, x))) = _
      rw [doneBy_append, doneBy_ne h, List.append_nil]
      rfl
  | finished | tornDown | turnedAway | offered | reported => rfl

/-- What a chronicle notes of an event of a worker that is there. -/
theorem note_worker {s : System} {i : Nat} {w : Worker} (hw : s.workers[i]? = some w)
    (log : Chronicle) (e : WorkerEvent) :
    log.note s (.worker i e) = log.noteWorker i w e := by
  show (s.workers[i]?).elim log _ = _
  rw [hw]
  rfl

/-- What a worker did is nothing to the loader and the recorder. -/
theorem note_worker_rest (log : Chronicle) (s : System) (i : Nat) (e : WorkerEvent) :
    (log.note s (.worker i e)).loader = log.loader ∧
      (log.note s (.worker i e)).recorder = log.recorder := by
  cases hw : s.workers[i]? with
  | none =>
      have hnote : log.note s (.worker i e) = log := by
        show (s.workers[i]?).elim log _ = _
        rw [hw]
        rfl
      rw [hnote]
      exact ⟨rfl, rfl⟩
  | some w =>
      rw [note_worker hw]
      cases e <;> exact ⟨rfl, rfl⟩

end Chronicle

namespace System

variable {s s' : System} {m : Move}

/-- A pipeline with its chronicle after a move. -/
def chronicled (now : System × Chronicle) (m : Move) : Option (System × Chronicle) :=
  noting System.step Chronicle.note now m

section Parts

variable (log : Chronicle)

/-- A move is nothing to the loader, or it is an event at it. -/
theorem Moves.loader (h : s.Moves m s') :
    (s'.loader = s.loader ∧ (log.note s m).loader = log.loader) ∨
      ∃ e, m = .loader e ∧ s.loader.Moves e s'.loader ∧
        (log.note s m).loader = log.loader.note s.loader e := by
  cases h with
  | looked h | signalled h | claimed h | claimFailed h | rested h | loaderOffered h | handed h
  | loaderTurnedAway h | loaderReported h | loaderTorn h => exact .inr ⟨_, rfl, h, rfl⟩
  | took hw | workerFinished hw | probed hw | workerTorn hw | emitted hw | workerTurnedAway hw
  | workerOffered hw | workerReported hw =>
      exact .inl ⟨rfl, (Chronicle.note_worker_rest log s _ _).1⟩
  | _ => exact .inl ⟨rfl, rfl⟩

/-- A move is nothing to the recorder, or it is an event at it. -/
theorem Moves.recorder (h : s.Moves m s') :
    (s'.recorder = s.recorder ∧ (log.note s m).recorder = log.recorder) ∨
      ∃ e, m = .recorder e ∧ s.recorder.Moves e s'.recorder ∧
        (log.note s m).recorder = log.recorder.note s.recorder e := by
  cases h with
  | recorderBegun h | received h | ticked h | idled h | recorderFinished h | committed h
  | commitFailed h | recorderOffered h | recorderReported h | recorderTorn h =>
      exact .inr ⟨_, rfl, h, rfl⟩
  | took hw | workerFinished hw | probed hw | workerTorn hw | emitted hw | workerTurnedAway hw
  | workerOffered hw | workerReported hw =>
      exact .inl ⟨rfl, (Chronicle.note_worker_rest log s _ _).2⟩
  | _ => exact .inl ⟨rfl, rfl⟩

/-- A move is nothing to the workers, or it is an event at one of them. -/
theorem Moves.workers (h : s.Moves m s') :
    s'.workers = s.workers ∨
      ∃ i w w' e, m = .worker i e ∧ s.workers[i]? = some w ∧ w.Moves e w' ∧
        s'.workers = s.workers.set i w' := by
  cases h with
  | took hw h | workerFinished hw h | probed hw h | workerTorn hw h | emitted hw h
  | workerTurnedAway hw h | workerOffered hw h | workerReported hw h =>
      exact .inr ⟨_, _, _, _, rfl, hw, h, rfl⟩
  | _ => exact .inl rfl

/-- An event at some worker is nothing to another one. -/
theorem worker_of_worker {i j : Nat} {w w' : Worker} {e : WorkerEvent}
    (hw : s.workers[j]? = some w) (h : w.Moves e w') :
    ((s.workers.set j w')[i]? = s.workers[i]? ∧
        (log.note s (.worker j e)).worker i = log.worker i) ∨
      ∃ w w'' e', Move.worker j e = .worker i e' ∧ s.workers[i]? = some w ∧
        (s.workers.set j w')[i]? = some w'' ∧ w.Moves e' w'' ∧
        (log.note s (.worker j e)).worker i = (log.worker i).note w e' := by
  rw [Chronicle.note_worker hw]
  by_cases hij : j = i
  · subst hij
    obtain ⟨hlt, _⟩ := List.getElem?_eq_some_iff.1 hw
    exact .inr ⟨w, w', e, rfl, hw, List.getElem?_set_self hlt, h, log.worker_noteWorker j w e⟩
  · exact .inl ⟨List.getElem?_set_ne hij, log.worker_noteWorker_ne hij w e⟩

/-- A move is nothing to a worker, or it is an event at this one. -/
theorem Moves.worker (h : s.Moves m s') (i : Nat) :
    (s'.workers[i]? = s.workers[i]? ∧ (log.note s m).worker i = log.worker i) ∨
      ∃ w w' e, m = .worker i e ∧ s.workers[i]? = some w ∧ s'.workers[i]? = some w' ∧
        w.Moves e w' ∧ (log.note s m).worker i = (log.worker i).note w e := by
  cases h with
  | took hw h | workerFinished hw h | probed hw h | workerTorn hw h | emitted hw h
  | workerTurnedAway hw h | workerOffered hw h | workerReported hw h =>
      exact worker_of_worker log hw h
  | _ => exact .inl ⟨rfl, rfl⟩

/-- A move is nothing to the pool, or it is an event at it. -/
theorem Moves.pool (h : s.Moves m s') :
    s'.pool = s.pool ∨ ∃ e, m = .pool e ∧ s.pool.Moves s.workers e s'.pool := by
  cases h with
  | poolNoted h | poolEnded h => exact .inr ⟨_, rfl, h⟩
  | _ => exact .inl rfl

/-- A move is nothing to the supervisor, or it is an event at it, or somebody asks
for an end; what it notes and whom it waits for is not changed by its events. -/
theorem Moves.supervisor (h : s.Moves m s') :
    s'.supervisor = s.supervisor ∨
      s'.ended = s.ended ∧ s'.collector = s.collector ∧
        (s'.supervisor = s.supervisor.asked ∨
          ∃ e, m = .supervisor e ∧ s.supervisor.Moves s.nextEnded? e s'.supervisor ∧
            (e = .concluded → s.collector.isGone)) := by
  cases h with
  | stageNoted h | published h | alarmed h | closed h =>
      exact .inr ⟨rfl, rfl, .inr ⟨_, rfl, h, fun he => by cases he⟩⟩
  | concluded h hgone => exact .inr ⟨rfl, rfl, .inr ⟨_, rfl, h, fun _ => hgone⟩⟩
  | asked => exact .inr ⟨rfl, rfl, .inl rfl⟩
  | _ => exact .inl rfl

/-- A move is nothing to the collector, or it is an event at it. -/
theorem Moves.collector (h : s.Moves m s') :
    s'.collector = s.collector ∨ ∃ e, m = .collector e ∧ s.collector.Moves e s'.collector := by
  cases h with
  | collectorBegun h | collectorTook h | collectorFinished h | collectorTorn h =>
      exact .inr ⟨_, rfl, h⟩
  | _ => exact .inl rfl

end Parts

end System

end PeerWatch
