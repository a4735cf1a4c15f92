import PeerWatch.Proofs.Pipeline.Crews
import PeerWatch.Proofs.Pipeline.Tallies

/-!
# A pool by itself

The workers of a pool take targets that somebody feeds to them, and hand on outcomes
that somebody takes, or leaves, or does not want any more.  Who that is makes no
difference to them; so here anybody may do what can be done at the other ends of
their three channels, at any time.

What is said of a worker in a whole pipeline (`Worker.Handles`) stops at a worker that
was torn down.  Here it goes on: that worker is lost with the target it had in hand, and
has handed on the outcomes of all before.

* `Worker.Answers` — an outcome for each target, or one that a worker was lost with;
* `System.tend`, `PoolLog` — a pool with somebody at each of its channels;
* `System.Keeps`, `System.Keeps.step` — what the pool knows of its workers.
-/

namespace PeerWatch

namespace Worker

variable {w w' : Worker} {e : WorkerEvent} {log : WorkerLog} {lost : List Target}

/-- What a worker has in hand when it is torn down. -/
def lostBy (w : Worker) : WorkerEvent → List Target
  | .tornDown => w.inHand
  | _ => []

/-- **An outcome for each target,** but for those it holds; a worker that was torn
down had one in hand, and handed on the outcomes of all before. -/
inductive Answers (w : Worker) (log : WorkerLog) : List Target → Prop
  | whole (hphase : w.phase ≠ .tornDown) (h : w.Handles log) : Answers w log []
  | torn {t : Target} (hphase : w.phase = .tornDown)
    (h : Handles { w with phase := .probing t } log) : Answers w log [t]

theorem answers_fresh : fresh.Answers .empty [] := .whole (by cases ·) handles_fresh

/-- Only a tear tears a worker down. -/
theorem Moves.phase_ne_tornDown (h : w.Moves e w') (htorn : e ≠ .tornDown) :
    w'.phase ≠ .tornDown := by
  cases h with
  | tornDown => exact absurd rfl htorn
  | emitted hphase =>
      show (if reportEvery ≤ w.unreported.probed then WorkerPhase.offering else .waiting) ≠ _
      split <;> exact (by cases ·)
  | _ => exact (by cases ·)

/-- **One event** keeps it so, unless the worker is turned away. -/
theorem Answers.step (h : w.Answers log lost) (hmoves : w.Moves e w')
    (hturned : e ≠ .turnedAway) : w'.Answers (log.note w e) (lost ++ w.lostBy e) := by
  cases h with
  | torn hphase _ =>
      have hgone := hmoves.not_gone
      simp [isGone, hphase] at hgone
  | whole hphase h =>
      by_cases htorn : e = .tornDown
      · subst htorn
        cases hmoves with
        | @tornDown t hprobing =>
            have hhand : w.lostBy .tornDown = [t] := by rw [lostBy, inHand, hprobing]
            have hsame : { w with phase := .probing t } = w := by rw [← hprobing]
            rw [hhand]
            refine .torn rfl ?_
            show Handles { w with phase := .probing t } log
            rw [hsame]
            exact h
      · have hnone : w.lostBy e = [] := by cases e <;> first | rfl | exact absurd rfl htorn
        rw [hnone]
        exact .whole (hmoves.phase_ne_tornDown htorn) (h.step hmoves htorn hturned)

/-- What a worker took is what it emitted, what it lost and what it holds. -/
theorem Answers.taken_eq (h : w.Answers log lost) :
    log.taken.map (·.id) = log.emitted.map (·.target) ++ lost.map (·.id) ++ w.held := by
  cases h with
  | whole _ h =>
      rw [List.map_nil, List.append_nil]
      exact h.taken_eq
  | @torn t hphase h =>
      have hheld : w.held = [] := by rw [held, toEmit, inHand, hphase]; rfl
      rw [hheld, List.append_nil]
      exact h.taken_eq

/-- What a worker probed is what it emitted and what it is about to emit. -/
theorem Answers.probed_eq (h : w.Answers log lost) : log.probed = log.emitted ++ w.toEmit := by
  cases h with
  | whole _ h => exact h.probed
  | torn hphase h =>
      rw [toEmit, hphase]
      exact h.probed

/-- A worker lost something exactly if it was torn down. -/
theorem Answers.lost_eq_nil_iff (h : w.Answers log lost) : lost = [] ↔ w.phase ≠ .tornDown := by
  cases h with
  | whole hphase _ => exact ⟨fun _ => hphase, fun _ => rfl⟩
  | torn hphase _ => exact ⟨(by cases ·), fun hnot => absurd hphase hnot⟩

/-- What a worker sends to the collector in an event. -/
def reportedBy (w : Worker) : WorkerEvent → List Report
  | .offered true | .reported true => w.pending.toSend
  | _ => []

/-- What a worker would send at last, and nobody takes. -/
def droppedBy (w : Worker) : WorkerEvent → List Report
  | .reported false => w.pending.toSend
  | _ => []

/-- What an event at a worker adds to what is counted. -/
def countedBy : WorkerEvent → Totals
  | .probed o => (Report.probed (Counters.zero.observeOutcome o)).totals
  | _ => .zero

/-- What a worker counts it has still to report, or it sends it, or nobody takes it. -/
theorem Moves.counts (h : w.Moves e w') :
    Totals.sum (w.reportedBy e) + Totals.sum (w.droppedBy e) + w'.pending.totals =
      w.pending.totals + countedBy e := by
  rw [h.totals]
  cases h with
  | offered hphase accepted | reported hphase accepted =>
      cases accepted <;>
        simp [reportedBy, droppedBy, countedBy, pendingAfter, Totals.sum_nil, Totals.sum_toSend,
          Totals.zero_add, Totals.add_zero]
  | _ =>
      show Totals.zero + .zero + _ = _
      rw [Totals.zero_add, Totals.zero_add]
      rfl

end Worker

/-- What happens at a pool, and at the other ends of its channels. -/
inductive PoolMove where
  | worker (i : Nat) (e : WorkerEvent)
  | pool (e : PoolEvent)
  | fed (t : Target)
  /-- There will be no more targets. -/
  | left
  | outcomeTaken
  | outcomesClosed
  | reportTaken
  | reportsClosed
deriving DecidableEq

namespace System

variable {s s' : System} {m : PoolMove}

/-- Some workers with channels of any size, nobody else at work. -/
def crew (concurrency targets outcomes reports : Nat) : System :=
  { start { probe := { concurrency := concurrency } } with
    targets := .ofCapacity targets
    outcomes := .ofCapacity outcomes
    reports := .ofCapacity reports }

/-- A pool after something has happened at it; nothing, if that cannot happen.  Who
feeds it goes when there will be no more targets. -/
def tend (s : System) : PoolMove → Option System
  | .worker i e => s.step (.worker i e)
  | .pool e => s.step (.pool e)
  | .fed t =>
    if s.loader.isGone then none
    else (s.targets.push? t).map fun targets => { s with targets := targets }
  | .left => if s.loader.isGone then none else some { s with loader := s.loader.enter .ended }
  | .outcomeTaken => s.outcomes.pop?.map fun (_, outcomes) => { s with outcomes := outcomes }
  | .outcomesClosed => some { s with outcomes := s.outcomes.close }
  | .reportTaken => s.reports.pop?.map fun (_, reports) => { s with reports := reports }
  | .reportsClosed => some { s with reports := s.reports.close }

/-- All that can happen at a pool. -/
inductive Tends (s : System) : PoolMove → System → Prop
  | worker {i : Nat} {e : WorkerEvent} {s' : System} (h : s.Moves (.worker i e) s') :
    Tends s (.worker i e) s'
  | pool {e : PoolEvent} {s' : System} (h : s.Moves (.pool e) s') : Tends s (.pool e) s'
  | fed (hthere : s.loader.isGone = false) (hroom : 0 < s.targets.room) (t : Target) :
    Tends s (.fed t) { s with targets := { s.targets with queue := s.targets.queue ++ [t] } }
  | left (hthere : s.loader.isGone = false) :
    Tends s .left { s with loader := s.loader.enter .ended }
  | outcomeTaken {o : Outcome} {rest : List Outcome} (hqueue : s.outcomes.queue = o :: rest) :
    Tends s .outcomeTaken { s with outcomes := { s.outcomes with queue := rest } }
  | outcomesClosed : Tends s .outcomesClosed { s with outcomes := s.outcomes.close }
  | reportTaken {r : Report} {rest : List Report} (hqueue : s.reports.queue = r :: rest) :
    Tends s .reportTaken { s with reports := { s.reports with queue := rest } }
  | reportsClosed : Tends s .reportsClosed { s with reports := s.reports.close }

/-- An event of a crew is one of the ways in which it can go. -/
theorem tends_of_tend (h : s.tend m = some s') : s.Tends m s' := by
  cases m with
  | worker i e => exact .worker (moves_of_step h)
  | pool e => exact .pool (moves_of_step h)
  | fed t =>
      simp only [tend] at h
      split at h
      · cases h
      · next hthere =>
          obtain ⟨targets, htargets, rfl⟩ := Option.map_eq_some_iff.1 h
          obtain ⟨hroom, rfl⟩ := Channel.push?_eq_some_iff.1 htargets
          exact .fed (Bool.eq_false_iff.2 hthere) hroom t
  | left =>
      simp only [tend] at h
      split at h
      · cases h
      · next hthere =>
          obtain rfl := Option.some.inj h
          exact .left (Bool.eq_false_iff.2 hthere)
  | outcomeTaken =>
      obtain ⟨⟨o, outcomes⟩, houtcomes, rfl⟩ := Option.map_eq_some_iff.1 h
      obtain ⟨rest, hqueue, rfl⟩ := Channel.pop?_eq_some_iff.1 houtcomes
      exact .outcomeTaken hqueue
  | outcomesClosed =>
      obtain rfl := Option.some.inj h
      exact .outcomesClosed
  | reportTaken =>
      obtain ⟨⟨r, reports⟩, hreports, rfl⟩ := Option.map_eq_some_iff.1 h
      obtain ⟨rest, hqueue, rfl⟩ := Channel.pop?_eq_some_iff.1 hreports
      exact .reportTaken hqueue
  | reportsClosed =>
      obtain rfl := Option.some.inj h
      exact .reportsClosed

end System

/-- What was done at a pool. -/
structure PoolLog where
  fed : List Target
  /-- What the workers took, probed and handed on. -/
  work : Chronicle
  /-- The targets that workers were torn down with, each with the worker's number. -/
  lost : List (Nat × Target)
  /-- The outcomes that somebody took. -/
  delivered : List Outcome
  /-- The reports that the workers sent. -/
  reported : List Report
  /-- The last reports that nobody took. -/
  dropped : List Report
  /-- The reports that somebody took. -/
  heard : List Report
deriving DecidableEq

namespace PoolLog

def empty : PoolLog := ⟨[], .empty, [], [], [], [], []⟩

/-- One more event at a worker. -/
def noteWorker (log : PoolLog) (i : Nat) (w : Worker) (e : WorkerEvent) : PoolLog :=
  { log with
    work := log.work.noteWorker i w e
    lost := log.lost ++ (w.lostBy e).map fun t => (i, t)
    reported := log.reported ++ w.reportedBy e
    dropped := log.dropped ++ w.droppedBy e }

/-- One more thing that happens at a pool. -/
def note (log : PoolLog) (s : System) : PoolMove → PoolLog
  | .worker i e => (s.workers[i]?).elim log fun w => log.noteWorker i w e
  | .fed t => { log with fed := log.fed ++ [t] }
  | .outcomeTaken => { log with delivered := log.delivered ++ s.outcomes.queue.head?.toList }
  | .reportTaken => { log with heard := log.heard ++ s.reports.queue.head?.toList }
  | .pool _ | .left | .outcomesClosed | .reportsClosed => log

/-- What a log notes of an event of a worker that is there. -/
theorem note_worker {s : System} {i : Nat} {w : Worker} (hw : s.workers[i]? = some w)
    (log : PoolLog) (e : WorkerEvent) :
    log.note s (.worker i e) = log.noteWorker i w e := by
  show (s.workers[i]?).elim log _ = _
  rw [hw]
  rfl

/-- The targets that one of the workers was torn down with. -/
def lostOf (log : PoolLog) (i : Nat) : List Target := Chronicle.doneBy i log.lost

/-- What happens at a worker is noted as its own. -/
theorem noteWorker_self (log : PoolLog) (i : Nat) (w : Worker) (e : WorkerEvent) :
    (log.noteWorker i w e).work.worker i = (log.work.worker i).note w e ∧
      (log.noteWorker i w e).lostOf i = log.lostOf i ++ w.lostBy e := by
  refine ⟨log.work.worker_noteWorker i w e, ?_⟩
  unfold lostOf noteWorker
  rw [Chronicle.doneBy_append, Chronicle.doneBy_self]

/-- What happens at a worker is not noted as another's. -/
theorem noteWorker_ne (log : PoolLog) {i j : Nat} (h : i ≠ j) (w : Worker) (e : WorkerEvent) :
    (log.noteWorker i w e).work.worker j = log.work.worker j ∧
      (log.noteWorker i w e).lostOf j = log.lostOf j := by
  refine ⟨log.work.worker_noteWorker_ne h w e, ?_⟩
  unfold lostOf noteWorker
  rw [Chronicle.doneBy_append, Chronicle.doneBy_ne h, List.append_nil]

end PoolLog

namespace System

variable {s s' : System} {m : PoolMove} {log : PoolLog}

/-- A pool with its log after something has happened at it. -/
def tended (now : System × PoolLog) (m : PoolMove) : Option (System × PoolLog) :=
  noting tend PoolLog.note now m

/-- An event at a worker is nothing to the others, to the pool and to who feeds it. -/
theorem Moves.of_worker {i : Nat} {e : WorkerEvent} (h : s.Moves (.worker i e) s') :
    ∃ w w', s.workers[i]? = some w ∧ w.Moves e w' ∧ s'.workers = s.workers.set i w' ∧
      s'.pool = s.pool ∧ s'.loader = s.loader := by
  cases h with
  | took hw h | workerFinished hw h | probed hw h | workerTorn hw h | emitted hw h
  | workerTurnedAway hw h | workerOffered hw h | workerReported hw h =>
      exact ⟨_, _, hw, h, rfl, rfl, rfl⟩

/-- What happens at a pool is nothing to a worker, or it is an event at this one. -/
theorem Tends.worker_cases (h : s.Tends m s') (log : PoolLog) (i : Nat) :
    (s'.workers[i]? = s.workers[i]? ∧ (log.note s m).work.worker i = log.work.worker i ∧
        (log.note s m).lostOf i = log.lostOf i) ∨
      ∃ w w' e, m = .worker i e ∧ s.workers[i]? = some w ∧ s'.workers[i]? = some w' ∧
        w.Moves e w' ∧ (log.note s m).work.worker i = (log.work.worker i).note w e ∧
        (log.note s m).lostOf i = log.lostOf i ++ w.lostBy e := by
  cases h with
  | @worker j e _ h =>
      obtain ⟨w, w', hw, hworker, hworkers, _⟩ := h.of_worker
      rw [PoolLog.note_worker hw, hworkers]
      by_cases hij : j = i
      · subst hij
        obtain ⟨hlt, _⟩ := List.getElem?_eq_some_iff.1 hw
        exact .inr ⟨w, w', e, rfl, hw, List.getElem?_set_self hlt, hworker,
          log.noteWorker_self j w e⟩
      · exact .inl ⟨List.getElem?_set_ne hij, log.noteWorker_ne hij w e⟩
  | pool h =>
      cases h with
      | poolNoted | poolEnded => exact .inl ⟨rfl, rfl, rfl⟩
  | _ => exact .inl ⟨rfl, rfl, rfl⟩

/-- Who does not take outcomes any more does not do so again. -/
theorem Tends.outcomes_open (h : s.Tends m s') (hopen : s'.outcomes.isOpen) :
    s.outcomes.isOpen := by
  cases h with
  | worker h => cases h <;> exact hopen
  | pool h => cases h <;> exact hopen
  | outcomesClosed => cases hopen
  | _ => exact hopen

/-- As long as outcomes are taken no worker is turned away. -/
theorem Tends.not_turnedAway {i : Nat} (h : s.Tends (.worker i .turnedAway) s') :
    s.outcomes.isOpen = false := by
  cases h with
  | worker h =>
      cases h with
      | workerTurnedAway _ _ hclosed => exact hclosed

/-- **What a pool keeps of its workers,** and of its channel of targets. -/
structure Keeps (s : System) : Prop where
  staffed : s.workers ≠ []
  pool : s.pool.Watches s.workers
  tear : s.pool.sawTear → ∃ w ∈ s.workers, w.phase = .tornDown
  targets : s.targets.Ends s.pool.hasEnded
  cleared : ∀ w ∈ s.workers, w.phase = .ended → w.pending.totals = .zero

/-- A crew that was just put together keeps its numbers and its channels. -/
theorem keeps_crew (concurrency targets outcomes reports : Nat) :
    (crew concurrency targets outcomes reports).Keeps where
  staffed := (orderly_start _).staffed
  pool := Pool.watches_fresh _
  tear h := by cases h
  targets := Channel.ends_ofCapacity _
  cleared w hw hended := by
    obtain rfl := List.eq_of_mem_replicate hw
    cases hended

/-- What happens at a worker, the pool keeps. -/
theorem Keeps.worker_step {i : Nat} {e : WorkerEvent} (h : s.Keeps)
    (hmoves : s.Moves (.worker i e) s') : s'.Keeps := by
  have htargets := hmoves.ends_targets h.targets
  obtain ⟨w, w', hw, hworker, hworkers, hpool, _⟩ := hmoves.of_worker
  refine ⟨?_, ?_, hmoves.tear h.tear, htargets, ?_⟩
  · rw [hworkers, ne_eq, List.set_eq_nil_iff]
    exact h.staffed
  · rw [hworkers, hpool]
    exact h.pool.worker hw hworker
  · rw [hworkers]
    intro v hv hended
    rcases List.mem_or_eq_of_mem_set hv with hv | rfl
    · exact h.cleared v hv hended
    · exact hworker.cleared hended

/-- **Whatever happens at a pool,** that much it keeps. -/
theorem Keeps.step (h : s.Keeps) (hmoves : s.Tends m s') : s'.Keeps := by
  cases hmoves with
  | worker hmoves => exact h.worker_step hmoves
  | pool hmoves =>
      have htargets := hmoves.ends_targets h.targets
      have hwatches := hmoves.watches h.pool
      have htear := hmoves.tear h.tear
      cases hmoves with
      | poolNoted | poolEnded => exact ⟨h.staffed, hwatches, htear, htargets, h.cleared⟩
  | fed hthere hroom t => exact ⟨h.staffed, h.pool, h.tear, h.targets.push hroom t, h.cleared⟩
  | left | outcomeTaken | outcomesClosed | reportTaken | reportsClosed =>
      exact ⟨h.staffed, h.pool, h.tear, h.targets, h.cleared⟩

end System

end PeerWatch
