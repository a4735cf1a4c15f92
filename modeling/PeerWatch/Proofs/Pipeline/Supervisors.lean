import PeerWatch.Proofs.Pipeline.Verdicts

/-!
# What the supervisor publishes

The supervisor does in several moves what others may look at between any two of them:
a failure is put into the slot, then published, then the signal is given; and anybody
may ask for an end at any time.  None of this is seen to go backwards.  What is
published goes from running over draining to an end, and stays there; the error shown
is the first one noted; and those who wait are all told the same.

It does not matter how the stages come to their ends.  So here a stage may end at any
time with any result, as it does when it is torn down in the middle of its work, and so
may the collector.

* `RunState.Moves` — how far the life of a pipeline goes;
* `Supervisor.Publishes`, `Supervisor.Publishes.step` — what is published, and when;
* `System.watch`, `System.supervised_of_run` — a pipeline whose stages may break off;
* `System.supervisor_publishes_how_it_ended` — what others see of it.
-/

namespace PeerWatch

/-- What a published state may be followed by. -/
inductive RunState.Moves : RunState → RunState → Prop
  | draining : Moves .running .draining
  | failed {state : RunState} (h : state.isTerminal = false) : Moves state .failed
  | stopped {state : RunState} (h : state.isTerminal = false) : Moves state .stopped

/-- No state follows a terminal one. -/
theorem RunState.Moves.not_terminal {state state' : RunState} (h : state.Moves state') :
    state.isTerminal = false := by
  cases h with
  | draining => rfl
  | failed h | stopped h => exact h

namespace Supervisor

variable {v v' : Supervisor} {stage : Stage} {result : Except PipelineError Unit}
variable {ended : List (Stage × Except PipelineError Unit)} {isTriggered isCollectorGone : Bool}

/-- The failure of a stage that has ended, if it failed. -/
def failure? (entry : Stage × Except PipelineError Unit) : Option (Stage × PipelineError) :=
  match entry.2 with
  | .ok () => none
  | .error e => some (entry.1, e)

/-- A stage without a failure has ended well. -/
theorem failure?_eq_none_iff {entry : Stage × Except PipelineError Unit} :
    failure? entry = none ↔ entry.2 = .ok () := by
  unfold failure?
  cases entry.2 with
  | ok => exact ⟨fun _ => rfl, fun _ => rfl⟩
  | error e => exact ⟨(by cases ·), (by cases ·)⟩

/-- The slot keeps what it holds, else it takes the failure of the stage noted. -/
theorem held_note (v : Supervisor) (stage : Stage) (result : Except PipelineError Unit) :
    (v.note stage result).errors.held = v.errors.held.or (failure? (stage, result)) := by
  cases result with
  | ok =>
      rw [failure?, Option.or_none]
      rfl
  | error e => cases hheld : v.errors.held <;> simp [note, ErrorSlot.report, failure?, hheld]

/-- When a stage was noted that has ended well, nothing comes of it. -/
theorem phase_note_of_none (hfailure : failure? (stage, result) = none) :
    (v.note stage result).phase = v.phase := by
  obtain rfl : result = .ok () := failure?_eq_none_iff.1 hfailure
  rfl

/-- When a failure was noted, it is to be published if the slot took it, and in any case
the signal is to be given. -/
theorem phase_note_of_some {failure : Stage × PipelineError}
    (hfailure : failure? (stage, result) = some failure) :
    (v.note stage result).phase = .publishing ∨
      (v.note stage result).phase = .alarming ∧ v.errors.held.isSome := by
  cases result with
  | ok => cases hfailure
  | error e => cases hheld : v.errors.held <;> simp [note, ErrorSlot.report, hheld]

/-- **What is published, and when.**  The slot holds the first failure noted.  A failure
is published before another stage is noted, and so is the signal given; and what is
published in the end is what the slot says. -/
structure Publishes (v : Supervisor) (ended : List (Stage × Except PipelineError Unit))
    (isTriggered : Bool) : Prop where
  held : v.errors.held = (ended.take v.noted).findSome? failure?
  failed : v.state = .failed → v.errors.held.isSome
  publishing : v.phase = .publishing → v.errors.held.isSome
  published : v.errors.held.isSome → v.phase = .publishing ∨ v.state = .failed
  alarmed : v.errors.held.isSome → v.phase = .publishing ∨ v.phase = .alarming ∨ isTriggered
  concluded : v.hasConcluded → v.state = v.finalState

theorem publishes_fresh : fresh.Publishes [] false where
  held := rfl
  failed := (by cases ·)
  publishing := (by cases ·)
  published := (by cases ·)
  alarmed := (by cases ·)
  concluded := (by cases ·)

section Publishes

/-- Unless it is still to be published, a failure in the slot is published. -/
theorem Publishes.state_of_held (h : v.Publishes ended isTriggered) (hheld : v.errors.held.isSome)
    (hphase : v.phase ≠ .publishing) : v.state = .failed :=
  (h.published hheld).resolve_left hphase

/-- Unless the signal is still to be given, it was given after a failure. -/
theorem Publishes.triggered_of_held (h : v.Publishes ended isTriggered)
    (hheld : v.errors.held.isSome) (hphase : v.phase ≠ .publishing)
    (hphase' : v.phase ≠ .alarming) : isTriggered :=
  ((h.alarmed hheld).resolve_left hphase).resolve_left hphase'

/-- More stages end, and the signal may be given. -/
theorem Publishes.mono (h : v.Publishes ended isTriggered)
    (hnotes : v.Notes ended isCollectorGone)
    (more : List (Stage × Except PipelineError Unit)) {isTriggered' : Bool}
    (htriggered : isTriggered → isTriggered') : v.Publishes (ended ++ more) isTriggered' where
  held := by
    rw [List.take_append_of_le_length hnotes.counted]
    exact h.held
  failed := h.failed
  publishing := h.publishing
  published := h.published
  alarmed hheld := (h.alarmed hheld).imp_right (Or.imp_right htriggered)
  concluded := h.concluded

/-- Somebody asks for an end. -/
theorem Publishes.asked (h : v.Publishes ended isTriggered) :
    v.asked.Publishes ended isTriggered where
  held := h.held
  failed hstate := by
    refine h.failed ?_
    cases hv : v.state <;> simp_all [Supervisor.asked]
  publishing := h.publishing
  published hheld := by
    refine (h.published hheld).imp_right fun hstate => ?_
    simp [Supervisor.asked, hstate]
  alarmed := h.alarmed
  concluded hconcluded := by
    have hstate := h.concluded hconcluded
    show (if v.state = .running then _ else v.state) = v.finalState
    rw [if_neg ?_, hstate]
    rw [hstate, finalState]
    split <;> exact (by cases ·)

/-- The next stage is noted. -/
theorem Publishes.note (h : v.Publishes ended isTriggered) (hphase : v.phase = .watching)
    (hnext : ended[v.noted]? = some (stage, result)) :
    (v.note stage result).Publishes ended isTriggered := by
  obtain ⟨hnoted, hstate, _⟩ := v.note_cases stage result
  have hheld := v.held_note stage result
  have hfirst : (v.note stage result).errors.held =
      (ended.take (v.note stage result).noted).findSome? failure? := by
    rw [hheld, hnoted, List.take_add_one, hnext, List.findSome?_append, ← h.held]
    simp
  have hpublished : v.errors.held.isSome → v.state = .failed := fun hsome =>
    h.state_of_held hsome (by simp [hphase])
  have halarmed : v.errors.held.isSome → isTriggered := fun hsome =>
    h.triggered_of_held hsome (by simp [hphase]) (by simp [hphase])
  cases hfailure : failure? (stage, result) with
  | none =>
      have hsame : (v.note stage result).errors.held = v.errors.held := by
        rw [hheld, hfailure, Option.or_none]
      have hwatching : (v.note stage result).phase = .watching :=
        (phase_note_of_none hfailure).trans hphase
      rw [← hsame] at hpublished halarmed
      refine ⟨hfirst, ?_, ?_, ?_, ?_, ?_⟩
      · rw [hstate, hsame]
        exact h.failed
      · rw [hwatching]
        exact (by cases ·)
      · rw [hstate]
        exact fun hsome => .inr (hpublished hsome)
      · exact fun hsome => .inr (.inr (halarmed hsome))
      · simp [hasConcluded, hwatching]
  | some failure =>
      have hfilled : (v.note stage result).errors.held.isSome := by
        rw [hheld, hfailure, Option.isSome_or, Option.isSome_some, Bool.or_true]
      have hafter := phase_note_of_some (v := v) hfailure
      refine ⟨hfirst, fun _ => hfilled, fun _ => hfilled, fun _ => ?_, fun _ => ?_, ?_⟩
      · rw [hstate]
        exact hafter.imp_right fun hsome => hpublished hsome.2
      · exact hafter.imp_right fun hsome => .inl hsome.1
      · rcases hafter with hphase | ⟨hphase, _⟩ <;> simp [hasConcluded, hphase]

/-- **One event** at a supervisor: what is published follows what is noted. -/
theorem Publishes.step (h : v.Publishes ended isTriggered) {e : SupervisorEvent}
    (hmoves : v.Moves ended[v.noted]? e v') {isTriggered' : Bool}
    (htriggered : isTriggered → isTriggered') (halarmed : e = .alarmed → isTriggered') :
    v'.Publishes ended isTriggered' := by
  have hlater : v.Publishes ended isTriggered' :=
    ⟨h.held, h.failed, h.publishing, h.published,
      fun hheld => (h.alarmed hheld).imp_right (Or.imp_right htriggered), h.concluded⟩
  cases hmoves with
  | noted hphase hnext => exact hlater.note hphase hnext
  | published hphase =>
      exact ⟨h.held, fun _ => h.publishing hphase, (by cases ·), fun _ => .inr rfl,
        fun _ => .inr (.inl rfl), (by cases ·)⟩
  | alarmed hphase =>
      refine ⟨h.held, h.failed, (by cases ·), fun hheld => .inr ?_,
        fun _ => .inr (.inr (halarmed rfl)), (by cases ·)⟩
      exact h.state_of_held hheld (by simp [hphase])
  | concluded hphase hnoted =>
      refine ⟨h.held, fun hstate => ?_, (by cases ·), fun hheld => .inr ?_, fun hheld => ?_,
        fun _ => rfl⟩
      · have hstate : v.finalState = .failed := hstate
        unfold finalState at hstate
        split at hstate
        · next hheld => exact hheld
        · cases hstate
      · exact if_pos hheld
      · exact .inr (.inr (hlater.triggered_of_held hheld (by simp [hphase]) (by simp [hphase])))
  | closed hphase =>
      refine ⟨h.held, h.failed, (by cases ·), fun hheld => .inr ?_, fun hheld => ?_, fun _ => ?_⟩
      · exact h.state_of_held hheld (by simp [hphase])
      · exact .inr (.inr (hlater.triggered_of_held hheld (by simp [hphase]) (by simp [hphase])))
      · exact h.concluded (by simp [hasConcluded, hphase])

/-- What is published does not go backwards when somebody asks for an end. -/
theorem asked_state (v : Supervisor) :
    v.asked.state = v.state ∨ v.state.Moves v.asked.state := by
  cases hstate : v.state with
  | running =>
      right
      simp only [asked, hstate]
      exact .draining
  | draining | stopped | failed => exact .inl (by simp [asked, hstate])

/-- What is published does not go backwards in an event at a supervisor; and nothing has
failed before there is an error in the slot. -/
theorem Moves.state {next : Option (Stage × Except PipelineError Unit)} {e : SupervisorEvent}
    (hmoves : v.Moves next e v') (hnotes : v.Notes ended isCollectorGone)
    (h : v.Publishes ended isTriggered) :
    (v'.state = v.state ∨ v.state.Moves v'.state) ∧
      (v'.state = .failed → v.errors.held.isSome) := by
  have hterminal : v.phase = .publishing ∨ v.phase = .watching → v.state ≠ .failed →
      v.state.isTerminal = false := by
    intro hphase hfailed
    have hstopped : v.state ≠ .stopped :=
      hnotes.not_stopped (by rcases hphase with hphase | hphase <;> simp [hasConcluded, hphase])
    cases hstate : v.state <;> simp_all [RunState.isTerminal]
  cases hmoves with
  | noted hphase =>
      rw [(v.note_cases _ _).2.1]
      exact ⟨.inl rfl, h.failed⟩
  | published hphase =>
      refine ⟨?_, fun _ => h.publishing hphase⟩
      by_cases hfailed : v.state = .failed
      · exact .inl hfailed.symm
      · exact .inr (.failed (hterminal (.inl hphase) hfailed))
  | alarmed hphase => exact ⟨.inl rfl, h.failed⟩
  | concluded hphase hnoted =>
      show (v.finalState = v.state ∨ v.state.Moves v.finalState) ∧ (v.finalState = .failed → _)
      unfold finalState
      by_cases hheld : v.errors.held.isSome
      · rw [if_pos hheld]
        exact ⟨.inl (h.state_of_held hheld (by simp [hphase])).symm, fun _ => hheld⟩
      · rw [if_neg hheld]
        refine ⟨.inr (.stopped (hterminal (.inr hphase) ?_)), (by cases ·)⟩
        intro hfailed
        exact hheld (h.failed hfailed)
  | closed hphase => exact ⟨.inl rfl, h.failed⟩

/-- What the slot holds it keeps. -/
theorem Moves.held {next : Option (Stage × Except PipelineError Unit)} {e : SupervisorEvent}
    (hmoves : v.Moves next e v') {failure : Stage × PipelineError}
    (hheld : v.errors.held = some failure) : v'.errors.held = some failure := by
  cases hmoves with
  | noted => rw [held_note, hheld, Option.some_or]
  | published | alarmed | concluded | closed => exact hheld

/-- A supervisor that has told those who wait does nothing more. -/
theorem Moves.phase_ne_closed {next : Option (Stage × Except PipelineError Unit)}
    {e : SupervisorEvent} (hmoves : v.Moves next e v') : v.phase ≠ .closed := by
  cases hmoves <;> simp [*]

/-- Those who wait are told when the supervisor has concluded, and what it says then. -/
theorem verdict?_eq_some_iff {verdict : RunState} :
    v.verdict? = some verdict ↔ v.phase = .closed ∧ v.state = verdict := by
  unfold verdict?
  split
  · next hclosed => simp [hclosed]
  · next hclosed => simp [hclosed]

end Publishes

end Supervisor

/-- What happens to a pipeline whose stages may break off. -/
inductive WatchMove where
  | move (m : Move)
  /-- A stage ends in the middle of its work, with any result. -/
  | brokeOff (stage : Stage) (result : Except PipelineError Unit)
  | collectorBrokeOff

namespace System

variable {s s' : System} {m : WatchMove}

/-- A pipeline one of whose stages is gone, with its ends of the channels. -/
def without (s : System) : Stage → System
  | .loader => { s with loader := s.loader.enter .tornDown }
  | .probe =>
    { s with
      workers := s.workers.map fun w => if w.isGone then w else { w with phase := .tornDown }
      pool := { s.pool with hasEnded := true }
      targets := s.targets.close }
  | .recorder =>
    { s with recorder := { s.recorder with phase := .tornDown }, outcomes := s.outcomes.close }

/-- A pipeline after a move, or after a stage or the collector broke off; nothing, if that
cannot happen. -/
def watch (s : System) : WatchMove → Option System
  | .move m => s.step m
  | .brokeOff stage result =>
    if (s.result? stage).isSome then none
    else some ((s.without stage).endStage stage (some result))
  | .collectorBrokeOff =>
    if s.collector.isGone then none
    else some { s with collector := { s.collector with phase := .tornDown }
                       reports := s.reports.close }

/-- All that can happen to it. -/
inductive Watches (s : System) : WatchMove → System → Prop
  | move {m : Move} {s' : System} (h : s.Moves m s') : Watches s (.move m) s'
  | brokeOff {stage : Stage} (hthere : s.result? stage = none)
    (result : Except PipelineError Unit) :
    Watches s (.brokeOff stage result)
      { s.without stage with ended := s.ended ++ [(stage, result)] }
  | collectorBrokeOff (hthere : s.collector.isGone = false) :
    Watches s .collectorBrokeOff
      { s with collector := { s.collector with phase := .tornDown }, reports := s.reports.close }

/-- Taking a stage away leaves the rest of the pipeline. -/
theorem without_rest (s : System) (stage : Stage) :
    (s.without stage).ended = s.ended ∧ (s.without stage).supervisor = s.supervisor ∧
      (s.without stage).collector = s.collector ∧ (s.without stage).shutdown = s.shutdown := by
  cases stage <;> exact ⟨rfl, rfl, rfl, rfl⟩

/-- A stage that broke off has ended, and the others are as they were. -/
theorem isSome_result?_without (s : System) (stage stage' : Stage) :
    ((s.without stage).result? stage').isSome =
      (stage' = stage || (s.result? stage').isSome) := by
  cases stage <;> cases stage' <;> rfl

/-- A move under watch is one of the ways in which a pipeline can go. -/
theorem watches_of_watch (h : s.watch m = some s') : s.Watches m s' := by
  cases m with
  | move m => exact .move (moves_of_step h)
  | brokeOff stage result =>
      simp only [watch] at h
      split at h
      · cases h
      · next hthere =>
          obtain rfl := Option.some.inj h
          rw [endStage_eq, (s.without_rest stage).1]
          exact .brokeOff (by simpa using hthere) result
  | collectorBrokeOff =>
      simp only [watch] at h
      split at h
      · cases h
      · next hthere =>
          obtain rfl := Option.some.inj h
          exact .collectorBrokeOff (Bool.eq_false_iff.2 hthere)

section Watching

/-- At most one stage ends at a time, and it had not ended before. -/
theorem Watches.ended (h : s.Watches m s') :
    s'.ended = s.ended ∨ ∃ stage result, s.result? stage = none ∧ (s'.result? stage).isSome ∧
      s'.ended = s.ended ++ [(stage, result)] := by
  cases h with
  | move h =>
      rcases h.ended with hsame | ⟨stage, hnone, hended⟩
      · exact .inl hsame
      · cases hresult : s'.result? stage with
        | none =>
            rw [hresult] at hended
            exact .inl (hended.trans (List.append_nil _))
        | some result =>
            rw [hresult] at hended
            exact .inr ⟨stage, result, hnone, by rw [hresult]; rfl, hended⟩
  | @brokeOff stage hthere result =>
      refine .inr ⟨stage, result, hthere, ?_, rfl⟩
      show ((s.without stage).result? stage).isSome
      rw [isSome_result?_without]
      simp
  | collectorBrokeOff => exact .inl rfl

/-- A stage that has ended has ended for good. -/
theorem Watches.isSome_result? (h : s.Watches m s') {stage : Stage}
    (hended : (s.result? stage).isSome) : (s'.result? stage).isSome := by
  cases h with
  | move h => exact h.isSome_result? hended
  | @brokeOff stage' hthere result =>
      show ((s.without stage').result? stage).isSome
      rw [isSome_result?_without, hended, Bool.or_true]
  | collectorBrokeOff => cases stage <;> exact hended

/-- A collector that is gone stays so. -/
theorem Watches.collector_gone (h : s.Watches m s') (hgone : s.collector.isGone) :
    s'.collector.isGone := by
  cases h with
  | move h =>
      rw [h.collector_gone hgone]
      exact hgone
  | @brokeOff stage hthere result =>
      show (s.without stage).collector.isGone
      rw [(s.without_rest stage).2.2.1]
      exact hgone
  | collectorBrokeOff => rfl

/-- A signal that was given stays so. -/
theorem Watches.triggered (h : s.Watches m s') (htriggered : s.shutdown.triggered) :
    s'.shutdown.triggered := by
  cases h with
  | move h => exact h.triggered htriggered
  | @brokeOff stage hthere result =>
      show (s.without stage).shutdown.triggered
      rw [(s.without_rest stage).2.2.2]
      exact htriggered
  | collectorBrokeOff => exact htriggered

/-- What happens is nothing to the supervisor, or somebody asks for an end, or it is an
event at the supervisor. -/
theorem Watches.supervisor (h : s.Watches m s') :
    s'.supervisor = s.supervisor ∨
      s'.ended = s.ended ∧ s'.collector = s.collector ∧
        (s'.supervisor = s.supervisor.asked ∨
          ∃ e, m = .move (.supervisor e) ∧ s.supervisor.Moves s.nextEnded? e s'.supervisor ∧
            (e = .concluded → s.collector.isGone) ∧
            (e = .alarmed → s'.shutdown.triggered)) := by
  cases h with
  | move h =>
      rcases h.supervisor with hsame | ⟨hended, hcollector, hasked | ⟨e, rfl, hevent, hgone⟩⟩
      · exact .inl hsame
      · exact .inr ⟨hended, hcollector, .inl hasked⟩
      · refine .inr ⟨hended, hcollector, .inr ⟨e, rfl, hevent, hgone, ?_⟩⟩
        rintro rfl
        cases h with
        | alarmed => exact s.shutdown.triggered_trigger
  | @brokeOff stage hthere result => exact .inl (s.without_rest stage).2.1
  | collectorBrokeOff => exact .inl rfl

end Watching

/-- **What a supervisor has done** with the stages that have ended, each of them once. -/
structure Supervised (s : System) : Prop where
  gone : ∀ entry ∈ s.ended, (s.result? entry.1).isSome
  once : (s.ended.map (·.1)).Nodup
  notes : s.supervisor.Notes s.ended s.collector.isGone
  publishes : s.supervisor.Publishes s.ended s.shutdown.triggered

theorem supervised_start (settings : Settings) : (start settings).Supervised where
  gone _ h := by cases h
  once := .nil
  notes := Supervisor.notes_fresh
  publishes := Supervisor.publishes_fresh

section Steps

/-- Each stage ends once. -/
theorem Supervised.once_step (h : s.Supervised) (hwatches : s.Watches m s') :
    (∀ entry ∈ s'.ended, (s'.result? entry.1).isSome) ∧ (s'.ended.map (·.1)).Nodup := by
  rcases hwatches.ended with hended | ⟨stage, result, hnone, hsome, hended⟩
  · rw [hended]
    exact ⟨fun entry hentry => hwatches.isSome_result? (h.gone entry hentry), h.once⟩
  · rw [hended]
    refine ⟨?_, ?_⟩
    · intro entry hentry
      rcases List.mem_append.1 hentry with hentry | hentry
      · exact hwatches.isSome_result? (h.gone entry hentry)
      · obtain rfl := List.mem_singleton.1 hentry
        exact hsome
    · rw [List.map_append, List.nodup_append]
      refine ⟨h.once, by simp, ?_⟩
      intro a ha b hb hab
      -- a stage in the list has ended, and this one had not
      obtain ⟨entry, hentry, rfl⟩ := List.mem_map.1 ha
      obtain rfl : b = stage := by simpa using hb
      have hthere := h.gone entry hentry
      rw [hab, hnone] at hthere
      cases hthere

/-- **Whatever happens,** the supervisor has done with it what it does. -/
theorem Supervised.step (h : s.Supervised) (hwatches : s.Watches m s') : s'.Supervised := by
  obtain ⟨hgone, honce⟩ := h.once_step hwatches
  suffices hkept : s'.supervisor.Notes s'.ended s'.collector.isGone ∧
      s'.supervisor.Publishes s'.ended s'.shutdown.triggered from
    ⟨hgone, honce, hkept.1, hkept.2⟩
  rcases hwatches.supervisor with hsame |
    ⟨hended, hcollector, hasked | ⟨e, _, hevent, hconcluded, halarmed⟩⟩
  · obtain ⟨more, hended⟩ : ∃ more, s'.ended = s.ended ++ more := by
      rcases hwatches.ended with hended | ⟨stage, result, _, _, hended⟩
      · exact ⟨[], hended.trans (List.append_nil _).symm⟩
      · exact ⟨_, hended⟩
    rw [hsame, hended]
    exact ⟨h.notes.mono more hwatches.collector_gone,
      h.publishes.mono h.notes more hwatches.triggered⟩
  · rw [hasked, hended, hcollector]
    refine ⟨h.notes.asked, ?_⟩
    have hpublishes := h.publishes.mono h.notes [] hwatches.triggered
    rw [List.append_nil] at hpublishes
    exact hpublishes.asked
  · rw [hended, hcollector]
    exact ⟨h.notes.step hevent hconcluded, h.publishes.step hevent hwatches.triggered halarmed⟩

/-- A run in which no stage breaks off is one in which stages may. -/
theorem watched_of_run {settings : Settings} {moves : List Move}
    (h : Run System.step (start settings) moves s) :
    Run watch (start settings) (moves.map .move) s := by
  induction h with
  | nil => exact .nil
  | snoc _ hstep ih =>
      rw [List.map_append]
      exact .snoc ih hstep

/-- **Wherever a run leads,** the supervisor has done with it what it does. -/
theorem supervised_of_run {settings : Settings} {moves : List WatchMove}
    (h : Run watch (start settings) moves s) : s.Supervised :=
  h.invariant (supervised_start settings) fun _ _ _ hsupervised hstep =>
    hsupervised.step (watches_of_watch hstep)

end Steps

section Publishing

variable {settings : Settings} {moves more : List WatchMove}

/-- The error that others are shown. -/
def error? (s : System) : Option PipelineError := s.supervisor.errors.error?

/-- What is published goes on, or stays. -/
theorem Supervised.state_step (h : s.Supervised) (hwatches : s.Watches m s') :
    (s'.supervisor.state = s.supervisor.state ∨
        s.supervisor.state.Moves s'.supervisor.state) ∧
      (s'.supervisor.state = .failed → s.error?.isSome) := by
  have herror : s.error?.isSome = s.supervisor.errors.held.isSome := Option.isSome_map
  rw [herror]
  rcases hwatches.supervisor with hsame | ⟨_, _, hasked | ⟨e, _, hevent, _⟩⟩
  · rw [hsame]
    exact ⟨.inl rfl, h.publishes.failed⟩
  · rw [hasked]
    exact ⟨s.supervisor.asked_state, h.publishes.asked.failed⟩
  · exact hevent.state h.notes h.publishes

/-- That all has stopped is published when every stage has ended well. -/
theorem Supervised.of_stopped (h : s.Supervised) (hstopped : s.supervisor.state = .stopped) :
    s.error? = none ∧ ∀ stage, (stage, .ok ()) ∈ s.ended := by
  refine ⟨?_, h.notes.ok_of_stopped h.once hstopped⟩
  rw [error?, ErrorSlot.error?, (h.notes.stopped hstopped).2]
  rfl

/-- A stage is noted only when the signal was given, if one of those before it failed. -/
theorem Supervised.triggered_of_noted (h : s.Supervised)
    (hwatches : s.Watches (.move (.supervisor .noted)) s')
    (hfailed : ∃ entry ∈ s.ended.take s.supervisor.noted, entry.2 ≠ .ok ()) :
    s.shutdown.triggered := by
  have hphase : s.supervisor.phase = .watching := by
    cases hwatches with
    | move hmoves =>
        cases hmoves with
        | stageNoted hevent =>
            cases hevent with
            | noted hphase => exact hphase
  obtain ⟨entry, hentry, hfailed⟩ := hfailed
  have hheld : s.supervisor.errors.held.isSome := by
    rw [h.publishes.held, List.findSome?_isSome_iff]
    refine ⟨entry, hentry, ?_⟩
    rw [Option.isSome_iff_ne_none, ne_eq, Supervisor.failure?_eq_none_iff]
    exact hfailed
  exact h.publishes.triggered_of_held hheld (by simp [hphase]) (by simp [hphase])

/-- Who waits is told when all stages and the collector have ended. -/
theorem Supervised.of_verdict (h : s.Supervised) {verdict : RunState}
    (hverdict : s.supervisor.verdict? = some verdict) :
    verdict.isTerminal ∧ s.supervisor.state = verdict ∧
      (∀ stage, ∃ result, (stage, result) ∈ s.ended) ∧ s.collector.isGone := by
  obtain ⟨hclosed, hstate⟩ := Supervisor.verdict?_eq_some_iff.1 hverdict
  have hconcluded : s.supervisor.hasConcluded := by simp [Supervisor.hasConcluded, hclosed]
  refine ⟨?_, hstate, fun stage => ?_, (h.notes.concluded hconcluded).2⟩
  · rw [← hstate, h.publishes.concluded hconcluded, Supervisor.finalState]
    split <;> rfl
  · obtain ⟨result, hmem⟩ := h.notes.exists_mem h.once hconcluded stage
    exact ⟨result, List.mem_of_mem_take hmem⟩

/-- **What stays:** a terminal state, the error shown, and what those who wait are told. -/
structure Stays (s s' : System) : Prop where
  state : s.supervisor.state.isTerminal → s'.supervisor.state = s.supervisor.state
  held : ∀ failure, s.supervisor.errors.held = some failure →
    s'.supervisor.errors.held = some failure
  closed : s.supervisor.phase = .closed → s'.supervisor.phase = .closed

/-- **One move** leaves what stays. -/
theorem Supervised.stays_step (h : s.Supervised) (hwatches : s.Watches m s') : s.Stays s' where
  state hterminal := by
    rcases (h.state_step hwatches).1 with hsame | hmoves
    · exact hsame
    · rw [hmoves.not_terminal] at hterminal
      cases hterminal
  held failure hheld := by
    rcases hwatches.supervisor with hsame | ⟨_, _, hasked | ⟨e, _, hevent, _⟩⟩
    · rw [hsame, hheld]
    · rw [hasked]
      exact hheld
    · exact hevent.held hheld
  closed hclosed := by
    rcases hwatches.supervisor with hsame | ⟨_, _, hasked | ⟨e, _, hevent, _⟩⟩
    · rw [hsame, hclosed]
    · rw [hasked]
      exact hclosed
    · exact absurd hclosed hevent.phase_ne_closed

/-- It stays over any run. -/
theorem Supervised.stays_of_run (h : s.Supervised) (hmore : Run watch s more s') :
    s.Stays s' := by
  refine (hmore.invariant (P := fun s' => s'.Supervised ∧ s.Stays s')
    ⟨h, fun _ => rfl, fun _ => id, id⟩ ?_).2
  intro now m next hnow hstep
  obtain ⟨hsupervised, hstays⟩ := hnow
  have hwatches := watches_of_watch hstep
  have hnext := hsupervised.stays_step hwatches
  refine ⟨hsupervised.step hwatches, fun hterminal => ?_, fun failure hheld => ?_,
    fun hclosed => hnext.closed (hstays.closed hclosed)⟩
  · have hsame := hstays.state hterminal
    rw [← hsame] at hterminal
    exact (hnext.state hterminal).trans hsame
  · exact hnext.held failure (hstays.held failure hheld)

/-- **The supervisor publishes how it ended.**  Whatever happens in whatever order, what
is published stays or goes on from running to draining or from either of them to an
end.  It says that something failed only after an error was put into the slot, and that
all has stopped only when every stage has ended well and the slot is vacant; and after a
failure no other stage is noted before the signal is given.

The slot holds the first failure noted.  What it holds never changes, and no more does a
terminal state; and those who wait, whenever they look, are told the same terminal state,
which is the published one, when all stages and the collector have ended. -/
theorem supervisor_publishes_how_it_ended (hrun : Run watch (start settings) moves s) :
    (∀ m s', s.watch m = some s' →
      (s'.supervisor.state = s.supervisor.state ∨
        s.supervisor.state.Moves s'.supervisor.state) ∧
      (s'.supervisor.state = .failed → s.error?.isSome) ∧
      (s'.supervisor.state = .stopped →
        s'.error? = none ∧ ∀ stage, (stage, .ok ()) ∈ s'.ended) ∧
      (m = .move (.supervisor .noted) →
        (∃ entry ∈ s.ended.take s.supervisor.noted, entry.2 ≠ .ok ()) →
        s.shutdown.triggered)) ∧
    s.supervisor.errors.held =
      (s.ended.take s.supervisor.noted).findSome? Supervisor.failure? ∧
    ∀ more s', Run watch s more s' →
      (s.supervisor.state.isTerminal → s'.supervisor.state = s.supervisor.state) ∧
      (∀ e, s.error? = some e → s'.error? = some e) ∧
      ∀ verdict, s.supervisor.verdict? = some verdict →
        verdict.isTerminal ∧ s.supervisor.state = verdict ∧
        (∀ stage, ∃ result, (stage, result) ∈ s.ended) ∧ s.collector.isGone ∧
        s'.supervisor.verdict? = some verdict := by
  have hsupervised := supervised_of_run hrun
  refine ⟨?_, hsupervised.publishes.held, ?_⟩
  · intro m s' hstep
    have hwatches := watches_of_watch hstep
    obtain ⟨hstate, hfailed⟩ := hsupervised.state_step hwatches
    refine ⟨hstate, hfailed, (hsupervised.step hwatches).of_stopped, ?_⟩
    rintro rfl
    exact hsupervised.triggered_of_noted hwatches
  · intro more s' hmore
    have hstays := hsupervised.stays_of_run hmore
    refine ⟨hstays.state, ?_, ?_⟩
    · intro e he
      obtain ⟨failure, hheld, rfl⟩ := Option.map_eq_some_iff.1 he
      rw [error?, ErrorSlot.error?, hstays.held failure hheld]
      rfl
    · intro verdict hverdict
      obtain ⟨hterminal, hstate, hended, hgone⟩ := hsupervised.of_verdict hverdict
      refine ⟨hterminal, hstate, hended, hgone, Supervisor.verdict?_eq_some_iff.2 ⟨?_, ?_⟩⟩
      · exact hstays.closed (Supervisor.verdict?_eq_some_iff.1 hverdict).1
      · rw [← hstate] at hterminal
        exact (hstays.state hterminal).trans hstate

/-- The recorder breaks off, and its error is in the slot when somebody asks for an end;
then the pool breaks off as well.  The next stage is noted with the signal given; and who
waits is told of the first failure, and is told the same after another one has asked. -/
theorem supervisor_publishes_how_it_ended_two_failures :
    ∃ (settings : Settings) (moves rest : List WatchMove) (e : PipelineError)
      (before last asked s : System),
      Run watch (start settings) moves before ∧
      before.supervisor.state = .draining ∧ before.error? = some e ∧
      Run watch before rest last ∧ last.watch (.move .ask) = some asked ∧
      last.supervisor.verdict? = some .failed ∧ last.error? = some e ∧
      (∀ stage, ∃ result, (stage, result) ∈ last.ended) ∧ last.collector.isGone ∧
      asked.supervisor.verdict? = some .failed ∧
      last.supervisor.errors.held =
        (last.ended.take last.supervisor.noted).findSome? Supervisor.failure? ∧
      before.watch (.move (.supervisor .published)) = some s ∧
      before.supervisor.state.Moves s.supervisor.state := by
  let e : PipelineError := .aborted .recorder "stalled"
  let settings : Settings := {}
  let moves : List WatchMove :=
    [.brokeOff .recorder (.error e), .move (.supervisor .noted), .move .ask]
  let rest : List WatchMove := [.move (.supervisor .published),
    .brokeOff .probe (.error (.torn .probe)), .move (.supervisor .alarmed),
    .move (.supervisor .noted), .move .signal, .move (.supervisor .alarmed),
    .brokeOff .loader (.ok ()), .move (.supervisor .noted), .collectorBrokeOff,
    .move (.supervisor .concluded), .move (.supervisor .closed)]
  have hchecked : (moves.foldlM watch (start settings)).any fun before =>
      before.supervisor.state = .draining ∧ before.error? = some e ∧
        (before.watch (.move (.supervisor .published))).any (·.supervisor.state = .failed) ∧
        (rest.foldlM watch before).any fun last =>
          last.supervisor.verdict? = some .failed ∧ (last.watch (.move .ask)).isSome := by decide
  obtain ⟨before, hrun, hchecked⟩ := Run.exists_of_any hchecked
  obtain ⟨hdraining, herror, hpublished, hchecked⟩ := of_decide_eq_true hchecked
  obtain ⟨s, hpublish, hfailed⟩ := (Option.any_eq_true _ _).1 hpublished
  obtain ⟨last, hrest, hchecked⟩ := Run.exists_of_any hchecked
  obtain ⟨hverdict, hask⟩ := of_decide_eq_true hchecked
  obtain ⟨asked, hask⟩ := Option.isSome_iff_exists.1 hask
  obtain ⟨hsteps, _, hstays⟩ := supervisor_publishes_how_it_ended hrun
  obtain ⟨_, hfirst, hlast⟩ := supervisor_publishes_how_it_ended (hrun.append hrest)
  obtain ⟨_, _, hended⟩ := hlast [.move .ask] asked (.single hask)
  obtain ⟨_, _, hstages, hgone, hsame⟩ := hended .failed hverdict
  have hmoves : before.supervisor.state.Moves s.supervisor.state := by
    refine ((hsteps _ s hpublish).1).resolve_left ?_
    rw [hdraining, of_decide_eq_true hfailed]
    exact (by cases ·)
  exact ⟨settings, moves, rest, e, before, last, asked, s, hrun, hdraining, herror, hrest, hask,
    hverdict, (hstays rest last hrest).2.1 e herror, hstages, hgone, hsame, hfirst, hpublish,
    hmoves⟩

end Publishing

end System

end PeerWatch
