import PeerWatch.Proofs.Pipeline.Endings

/-!
# What the supervisor concludes

Each stage ends once, in its own way, and is put into the list of ended stages
then.  The supervisor goes through that list; as long as its error slot is
vacant, all that it has noted ended well.  It concludes when all stages are
noted and the collector is gone, so a pipeline that has stopped is one whose
stages have all ended well.

* `System.result?` — how a stage has ended;
* `Supervisor.Notes`, `Supervisor.Notes.step` — what the supervisor has noted;
* `System.Noted`, `System.noted_of_run` — the list of ended stages;
* `System.Noted.of_stopped` — what a pipeline is that has stopped.
-/

namespace PeerWatch

namespace Recorder

/-- A recorder that is not gone has no result. -/
theorem result?_eq_none {r : Recorder} (h : r.isGone = false) : r.result? = none := by
  unfold result?
  cases hphase : r.phase <;> simp_all [isGone]

/-- A recorder with a result is gone. -/
theorem isGone_of_result? {r : Recorder} (h : r.result?.isSome) : r.isGone := by
  cases hgone : r.isGone with
  | true => rfl
  | false =>
      rw [result?_eq_none hgone] at h
      cases h

end Recorder

/-- A loader with a result is gone. -/
theorem Loader.isGone_of_result? {l : Loader} (h : l.result?.isSome) : l.isGone := by
  cases hgone : l.isGone with
  | true => rfl
  | false =>
      rw [Loader.result?_eq_none hgone] at h
      cases h

namespace Supervisor

variable {v : Supervisor} {stage : Stage} {result : Except PipelineError Unit}

/-- A stage is noted: it is counted, a failure fills the slot, and the published
state is as it was. -/
theorem note_cases (v : Supervisor) (stage : Stage) (result : Except PipelineError Unit) :
    (v.note stage result).noted = v.noted + 1 ∧ (v.note stage result).state = v.state ∧
      (result = .ok () ∧ (v.note stage result).errors = v.errors ∧
          (v.note stage result).phase = v.phase ∨
        (v.note stage result).errors.held.isSome ∧
          ((v.note stage result).phase = .publishing ∨
            (v.note stage result).phase = .alarming)) := by
  cases result with
  | ok => exact ⟨rfl, rfl, .inl ⟨rfl, rfl, rfl⟩⟩
  | error e =>
      refine ⟨rfl, rfl, .inr ?_⟩
      cases hheld : v.errors.held with
      | none => simp [note, ErrorSlot.report, hheld]
      | some held => simp [note, ErrorSlot.report, hheld]

/-- Whether a supervisor has published the final state. -/
def hasConcluded (v : Supervisor) : Bool := v.phase = .closing ∨ v.phase = .closed

/-- **What the supervisor has noted** of the list of ended stages: as long as the
error slot is vacant, the stages noted ended well; once the final state is
published, all are noted and the collector is gone. -/
structure Notes (v : Supervisor) (ended : List (Stage × Except PipelineError Unit))
    (isCollectorGone : Bool) : Prop where
  counted : v.noted ≤ ended.length
  unfailed : v.errors.held = none → ∀ entry ∈ ended.take v.noted, entry.2 = .ok ()
  concluded : v.hasConcluded → v.noted = stageCount ∧ isCollectorGone
  stopped : v.state = .stopped → v.hasConcluded ∧ v.errors.held = none

section Notes

variable {v' : Supervisor} {ended : List (Stage × Except PipelineError Unit)}
variable {isCollectorGone : Bool}

theorem notes_fresh : fresh.Notes [] false where
  counted := Nat.le_refl _
  unfailed _ _ h := by cases h
  concluded h := by cases h
  stopped h := by cases h

/-- What was noted stays noted when more stages end and the collector goes. -/
theorem Notes.mono (h : v.Notes ended isCollectorGone)
    (more : List (Stage × Except PipelineError Unit)) {isGone : Bool}
    (hgone : isCollectorGone → isGone) : v.Notes (ended ++ more) isGone where
  counted := by
    rw [List.length_append]
    exact Nat.le_add_right_of_le h.counted
  unfailed := by
    rw [List.take_append_of_le_length h.counted]
    exact h.unfailed
  concluded hconcluded := ⟨(h.concluded hconcluded).1, hgone (h.concluded hconcluded).2⟩
  stopped := h.stopped

/-- Asked to stop, a supervisor has noted what it had. -/
theorem Notes.asked (h : v.Notes ended isCollectorGone) : v.asked.Notes ended isCollectorGone where
  counted := h.counted
  unfailed := h.unfailed
  concluded := h.concluded
  stopped hstopped := by
    refine h.stopped ?_
    cases hstate : v.state <;> simp_all [Supervisor.asked]

/-- Before it concludes a supervisor has not published that all has stopped. -/
theorem Notes.not_stopped (h : v.Notes ended isCollectorGone) (hphase : v.hasConcluded = false) :
    v.state ≠ .stopped := by
  intro hstopped
  rw [(h.stopped hstopped).1] at hphase
  cases hphase

/-- The next stage is noted. -/
theorem Notes.note (h : v.Notes ended isCollectorGone) (hphase : v.phase = .watching)
    (hnext : ended[v.noted]? = some (stage, result)) :
    (v.note stage result).Notes ended isCollectorGone := by
  obtain ⟨hlt, _⟩ := List.getElem?_eq_some_iff.1 hnext
  have hwatching : v.hasConcluded = false := by simp [hasConcluded, hphase]
  obtain ⟨hnoted, hstate, hcase⟩ := v.note_cases stage result
  have hconcluded : (v.note stage result).hasConcluded = false := by
    rcases hcase with ⟨_, _, hsame⟩ | ⟨_, hpublishing | halarming⟩
    · simp [hasConcluded, hsame, hphase]
    · simp [hasConcluded, hpublishing]
    · simp [hasConcluded, halarming]
  refine ⟨?_, ?_, ?_, ?_⟩
  · rw [hnoted]
    exact hlt
  · intro hheld
    rcases hcase with ⟨hok, herrors, _⟩ | ⟨hfilled, _⟩
    · rw [herrors] at hheld
      rw [hnoted, List.take_add_one, hnext]
      intro entry hentry
      rcases List.mem_append.1 hentry with hentry | hentry
      · exact h.unfailed hheld entry hentry
      · obtain rfl : entry = (stage, result) := by simpa using hentry
        exact hok
    · rw [hheld] at hfilled
      cases hfilled
  · intro hdone
    rw [hconcluded] at hdone
    cases hdone
  · rw [hstate]
    intro hstopped
    exact absurd hstopped (h.not_stopped hwatching)

/-- **One event** at a supervisor keeps what it has noted. -/
theorem Notes.step (h : v.Notes ended isCollectorGone) {e : SupervisorEvent}
    (hmoves : v.Moves ended[v.noted]? e v') (hgone : e = .concluded → isCollectorGone) :
    v'.Notes ended isCollectorGone := by
  cases hmoves with
  | noted hphase hnext => exact h.note hphase hnext
  | published hphase =>
      exact ⟨h.counted, h.unfailed, (by cases ·), (by cases ·)⟩
  | alarmed hphase =>
      refine ⟨h.counted, h.unfailed, (by cases ·), fun hstopped => ?_⟩
      exact absurd hstopped (h.not_stopped (by simp [hasConcluded, hphase]))
  | concluded hphase hnoted =>
      refine ⟨h.counted, h.unfailed, fun _ => ⟨hnoted, hgone rfl⟩, fun hstopped => ⟨rfl, ?_⟩⟩
      have hstopped : v.finalState = .stopped := hstopped
      cases hheld : v.errors.held with
      | none => rfl
      | some held => simp [finalState, hheld] at hstopped
  | closed hphase =>
      have hconcluded : v.hasConcluded := by simp [hasConcluded, hphase]
      exact ⟨h.counted, h.unfailed, fun _ => h.concluded hconcluded,
        fun hstopped => ⟨rfl, (h.stopped hstopped).2⟩⟩

/-- A list with as many stages as there are, none of them twice, has them all. -/
theorem mem_of_nodup {stages : List Stage} (h : stages.Nodup)
    (hlength : stageCount ≤ stages.length) (stage : Stage) : stage ∈ stages := by
  match stages, h, hlength with
  | a :: b :: c :: rest, h, _ =>
      simp only [List.nodup_cons, List.mem_cons, not_or] at h
      obtain ⟨⟨hab, hac, _⟩, ⟨hbc, _⟩, _⟩ := h
      have hmem : stage = a ∨ stage = b ∨ stage = c := by
        cases stage <;> cases a <;> cases b <;> cases c <;> simp_all
      rcases hmem with rfl | rfl | rfl <;> simp

/-- A supervisor that has concluded has noted each of the stages. -/
theorem Notes.exists_mem (h : v.Notes ended isCollectorGone) (honce : (ended.map (·.1)).Nodup)
    (hconcluded : v.hasConcluded) (stage : Stage) :
    ∃ result, (stage, result) ∈ ended.take v.noted := by
  have hnoted := (h.concluded hconcluded).1
  have hcounted := h.counted
  have hstages : ((ended.take v.noted).map (·.1)).Nodup :=
    honce.sublist ((List.take_sublist _ _).map _)
  have hlength : stageCount ≤ ((ended.take v.noted).map (·.1)).length := by
    rw [List.length_map, List.length_take, Nat.min_eq_left hcounted]
    exact Nat.le_of_eq hnoted.symm
  obtain ⟨⟨stage', result⟩, hmem, rfl⟩ := List.mem_map.1 (mem_of_nodup hstages hlength stage)
  exact ⟨result, hmem⟩

/-- When all has stopped, every stage has ended well. -/
theorem Notes.ok_of_stopped (h : v.Notes ended isCollectorGone)
    (honce : (ended.map (·.1)).Nodup) (hstopped : v.state = .stopped) (stage : Stage) :
    (stage, .ok ()) ∈ ended := by
  obtain ⟨hconcluded, hheld⟩ := h.stopped hstopped
  obtain ⟨result, hmem⟩ := h.exists_mem honce hconcluded stage
  obtain rfl : result = .ok () := h.unfailed hheld _ hmem
  exact List.mem_of_mem_take hmem

end Notes

end Supervisor

namespace System

variable {s s' : System} {m : Move}

/-- How a stage has ended, once it has. -/
def result? (s : System) : Stage → Option (Except PipelineError Unit)
  | .loader => s.loader.result?
  | .probe => if s.pool.hasEnded then some s.pool.result else none
  | .recorder => s.recorder.result?

/-- Of the stages at most one ends with a move, and it had not ended before. -/
theorem Moves.ended (h : s.Moves m s') :
    s'.ended = s.ended ∨ ∃ stage, s.result? stage = none ∧
      s'.ended = s.ended ++ endings stage (s'.result? stage) := by
  cases h with
  | loaderReported h | loaderTorn h =>
      exact .inr ⟨.loader, Loader.result?_eq_none h.not_gone, rfl⟩
  | recorderReported h | recorderTorn h =>
      exact .inr ⟨.recorder, Recorder.result?_eq_none h.not_gone, rfl⟩
  | poolEnded h =>
      cases h with
      | ended hall hended =>
          refine .inr ⟨.probe, ?_, rfl⟩
          simp [result?, hended]
  | _ => exact .inl rfl

/-- A stage that has ended has ended for good. -/
theorem Moves.isSome_result? (h : s.Moves m s') {stage : Stage}
    (hended : (s.result? stage).isSome) : (s'.result? stage).isSome := by
  cases stage with
  | loader =>
      rw [System.result?, h.loader_gone (Loader.isGone_of_result? hended)]
      exact hended
  | probe =>
      rcases h.pool with hsame | ⟨e, _, hpool⟩
      · rw [System.result?, hsame]
        exact hended
      · have hthere : s.pool.hasEnded := by
          cases hthere : s.pool.hasEnded with
          | true => rfl
          | false => simp [System.result?, hthere] at hended
        generalize hp : s'.pool = p at hpool
        have hstays : p.hasEnded := by
          cases hpool with
          | noted => exact hthere
          | ended => rfl
        simp [System.result?, hp, hstays]
  | recorder =>
      rw [System.result?, h.recorder_gone (Recorder.isGone_of_result? hended)]
      exact hended

/-- How a stage has ended stays so. -/
theorem Moves.result? (h : s.Moves m s') (hpool : s.pool.Watches s.workers) {stage : Stage}
    {result : Except PipelineError Unit} (hresult : s.result? stage = some result) :
    s'.result? stage = some result := by
  have hended : (s.result? stage).isSome := Option.isSome_of_eq_some hresult
  cases stage with
  | loader =>
      rw [System.result?, h.loader_gone (Loader.isGone_of_result? hended)]
      exact hresult
  | probe =>
      rcases h.pool with hsame | ⟨e, _, hmoves⟩
      · rw [System.result?, hsame]
        exact hresult
      · rw [System.result?, hpool.not_ended hmoves] at hresult
        cases hresult
  | recorder =>
      rw [System.result?, h.recorder_gone (Recorder.isGone_of_result? hended)]
      exact hresult

/-- **The list of ended stages.**  Each stage stands in it at most once, with its
result, and the supervisor has noted the first ones. -/
structure Noted (s : System) : Prop where
  results : ∀ stage result, (stage, result) ∈ s.ended → s.result? stage = some result
  once : (s.ended.map (·.1)).Nodup
  notes : s.supervisor.Notes s.ended s.collector.isGone

/-- At the start no stage has ended, and none is noted. -/
theorem noted_start (settings : Settings) : (start settings).Noted where
  results _ _ h := by cases h
  once := .nil
  notes := Supervisor.notes_fresh

section Steps

/-- What has ended stays in the list, with its result. -/
theorem Noted.results_step (h : s.Noted) (hpool : s.pool.Watches s.workers)
    (hmoves : s.Moves m s') :
    (∀ stage result, (stage, result) ∈ s'.ended → s'.result? stage = some result) ∧
      (s'.ended.map (·.1)).Nodup := by
  rcases hmoves.ended with hended | ⟨stage, hnone, hended⟩
  · rw [hended]
    exact ⟨fun stage result hmem => hmoves.result? hpool (h.results stage result hmem), h.once⟩
  · rw [hended]
    unfold endings
    refine ⟨?_, ?_⟩
    · intro stage' result hmem
      rcases List.mem_append.1 hmem with hmem | hmem
      · exact hmoves.result? hpool (h.results stage' result hmem)
      · obtain ⟨result', hresult, heq⟩ := List.mem_map.1 hmem
        obtain ⟨rfl, rfl⟩ := Prod.mk.injEq .. ▸ heq
        exact Option.mem_toList.1 hresult
    · cases hresult : s'.result? stage with
      | none => simpa using h.once
      | some result =>
          rw [List.map_append, List.nodup_append]
          refine ⟨h.once, by simp, ?_⟩
          intro a ha b hb hab
          -- a stage in the list has a result, and this one had none
          obtain ⟨⟨stage', result'⟩, hmem, rfl⟩ := List.mem_map.1 ha
          obtain rfl : b = stage := by simpa using hb
          have hsome := h.results stage' result' hmem
          have hab : stage' = b := hab
          rw [hab, hnone] at hsome
          cases hsome

/-- **One move** keeps the list of ended stages right. -/
theorem Noted.step (h : s.Noted) (hpool : s.pool.Watches s.workers) (hmoves : s.Moves m s') :
    s'.Noted := by
  obtain ⟨hresults, honce⟩ := h.results_step hpool hmoves
  refine ⟨hresults, honce, ?_⟩
  rcases hmoves.supervisor with hsame | ⟨hended, hcollector, hasked | ⟨e, _, hevent, hgone⟩⟩
  · have hcollector : s.collector.isGone → s'.collector.isGone := by
      intro hgone
      rw [hmoves.collector_gone hgone]
      exact hgone
    rw [hsame]
    rcases hmoves.ended with hended | ⟨stage, _, hended⟩
    · rw [hended, ← List.append_nil s.ended]
      exact h.notes.mono [] hcollector
    · rw [hended]
      exact h.notes.mono _ hcollector
  · rw [hasked, hended, hcollector]
    exact h.notes.asked
  · rw [hended, hcollector]
    exact h.notes.step hevent hgone

/-- **Wherever a run leads,** the list of ended stages is right. -/
theorem noted_of_run {settings : Settings} {moves : List Move}
    (h : Run step (start settings) moves s) : s.Noted := by
  refine (h.invariant (P := fun s => s.Orderly ∧ s.Noted)
    ⟨orderly_start settings, noted_start settings⟩ ?_).2
  intro s m s' hnow hstep
  have hmoves := moves_of_step hstep
  exact ⟨hnow.1.step hmoves, hnow.2.step hnow.1.pool hmoves⟩

end Steps

section Stopped

/-- **A pipeline that has stopped:** every stage has ended, and ended well, and the
collector is gone. -/
theorem Noted.of_stopped (h : s.Noted) (hstopped : s.supervisor.state = .stopped) :
    (∀ stage, s.result? stage = some (.ok ())) ∧ s.collector.isGone := by
  obtain ⟨hconcluded, _⟩ := h.notes.stopped hstopped
  refine ⟨fun stage => ?_, (h.notes.concluded hconcluded).2⟩
  exact h.results _ _ (h.notes.ok_of_stopped h.once hstopped stage)

end Stopped

end System

end PeerWatch
