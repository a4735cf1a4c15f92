import PeerWatch.Pipeline.Pool

/-!
# The workers, their logs and the pool

A worker makes one outcome of each target it takes and hands it on before it
takes the next one.  Only a worker that is torn down has a target without an
outcome, and only one that was turned away has an outcome it did not hand on.

The pool notes workers that are gone, and a worker that is gone does not come
back: when all are noted, all are gone, and if the pool ends well, none of them
was torn down.

* `Worker.Moves`, `Worker.moves_of_step` — all that can happen to a worker;
* `WorkerLog` — what a worker took, probed and handed on;
* `Worker.Handles`, `Worker.Handles.step` — one outcome for each target;
* `Pool.Watches` — what the pool has noted.
-/

namespace PeerWatch

/-- What a worker has done. -/
structure WorkerLog where
  taken : List Target
  /-- The outcomes of its probes. -/
  probed : List Outcome
  emitted : List Outcome
deriving DecidableEq

namespace Worker

variable {w w' : Worker} {e : WorkerEvent}

/-- All that can happen to a worker. -/
inductive Moves (w : Worker) : WorkerEvent → Worker → Prop
  | took (h : w.phase = .waiting) (t : Target) : Moves w (.took t) { w with phase := .probing t }
  | finished (h : w.phase = .waiting) : Moves w .finished { w with phase := .reporting }
  | probed {t : Target} (h : w.phase = .probing t) {o : Outcome} (ho : o.target = t.id) :
    Moves w (.probed o) ⟨.emitting o, w.unreported.observeOutcome o⟩
  | tornDown {t : Target} (h : w.phase = .probing t) :
    Moves w .tornDown { w with phase := .tornDown }
  | emitted {o : Outcome} (h : w.phase = .emitting o) :
    Moves w .emitted
      { w with phase := if reportEvery ≤ w.unreported.probed then .offering else .waiting }
  | turnedAway {o : Outcome} (h : w.phase = .emitting o) :
    Moves w .turnedAway { w with phase := .reporting }
  | offered (h : w.phase = .offering) (accepted : Bool) :
    Moves w (.offered accepted) ⟨.waiting, if accepted then .zero else w.unreported⟩
  | reported (h : w.phase = .reporting) (accepted : Bool) :
    Moves w (.reported accepted) ⟨.ended, .zero⟩

/-- An event of a worker is one of the ways in which it can go. -/
theorem moves_of_step (h : w.step e = some w') : w.Moves e w' := by
  unfold step at h
  split at h
  case h_1 t =>
    split at h
    · next hphase =>
        obtain rfl := Option.some.inj h
        exact .took hphase t
    · cases h
  case h_2 =>
    split at h
    · next hphase =>
        obtain rfl := Option.some.inj h
        exact .finished hphase
    · cases h
  case h_3 o =>
    split at h
    · next t hphase =>
        split at h
        · next ho =>
            obtain rfl := Option.some.inj h
            exact .probed hphase ho
        · cases h
    · cases h
  case h_4 =>
    split at h
    · next hphase =>
        obtain rfl := Option.some.inj h
        exact .tornDown hphase
    · cases h
  case h_5 =>
    split at h
    · next hphase =>
        obtain rfl := Option.some.inj h
        exact .emitted hphase
    · cases h
  case h_6 =>
    split at h
    · next hphase =>
        obtain rfl := Option.some.inj h
        exact .turnedAway hphase
    · cases h
  case h_7 accepted =>
    split at h
    · next hphase =>
        obtain rfl := Option.some.inj h
        exact .offered hphase accepted
    · cases h
  case h_8 accepted =>
    split at h
    · next hphase =>
        obtain rfl := Option.some.inj h
        exact .reported hphase accepted
    · cases h

/-- A worker that is gone does nothing more. -/
theorem Moves.not_gone (h : w.Moves e w') : w.isGone = false := by
  cases h <;> simp [isGone, *]

/-- The target that a worker has taken and not probed. -/
def inHand (w : Worker) : List Target :=
  match w.phase with
  | .probing t => [t]
  | _ => []

/-- The outcome that a worker has and did not hand on. -/
def toEmit (w : Worker) : List Outcome :=
  match w.phase with
  | .emitting o => [o]
  | _ => []

/-- Whether a worker takes no more targets, and was not torn down. -/
def isDone (w : Worker) : Bool := w.phase = .reporting ∨ w.phase = .ended

end Worker

namespace WorkerLog

def empty : WorkerLog := ⟨[], [], []⟩

/-- One more event at a worker. -/
def note (log : WorkerLog) (w : Worker) : WorkerEvent → WorkerLog
  | .took t => { log with taken := log.taken ++ [t] }
  | .probed o => { log with probed := log.probed ++ [o] }
  | .emitted => { log with emitted := log.emitted ++ w.toEmit }
  | _ => log

end WorkerLog

namespace Worker

variable {w w' : Worker} {e : WorkerEvent} {log : WorkerLog}

/-- **One outcome for each target.**  The targets that a worker took are those of
its outcomes, but for the one it has in hand; and it handed on all its outcomes
but the one it is about to. -/
structure Handles (w : Worker) (log : WorkerLog) : Prop where
  taken : log.taken.map (·.id) = log.probed.map (·.target) ++ w.inHand.map (·.id)
  probed : log.probed = log.emitted ++ w.toEmit

theorem handles_fresh : fresh.Handles .empty := ⟨rfl, rfl⟩

/-- **One event** keeps it so, unless the worker is torn down or turned away. -/
theorem Handles.step (h : w.Handles log) (hmoves : w.Moves e w') (htorn : e ≠ .tornDown)
    (hturned : e ≠ .turnedAway) : w'.Handles (log.note w e) := by
  obtain ⟨htaken, hprobed⟩ := h
  cases hmoves with
  | took hphase t =>
      simp only [inHand, toEmit, hphase, List.map_nil, List.append_nil] at htaken hprobed
      refine ⟨?_, ?_⟩
      · show (log.taken ++ [t]).map (·.id) = log.probed.map (·.target) ++ [t.id]
        rw [List.map_append, htaken]
        rfl
      · show log.probed = log.emitted ++ []
        rw [hprobed, List.append_nil]
  | finished hphase =>
      simp only [inHand, toEmit, hphase] at htaken hprobed
      exact ⟨htaken, hprobed⟩
  | @probed t hphase o ho =>
      simp only [inHand, toEmit, hphase, List.append_nil] at htaken hprobed
      refine ⟨?_, ?_⟩
      · show log.taken.map (·.id) = (log.probed ++ [o]).map (·.target) ++ []
        rw [htaken, List.append_nil, List.map_append, List.map_singleton, List.map_singleton, ho]
      · show log.probed ++ [o] = log.emitted ++ [o]
        rw [hprobed]
  | tornDown => exact absurd rfl htorn
  | @emitted o hphase =>
      simp only [inHand, hphase] at htaken
      have hprobed : log.probed = log.emitted ++ [o] := by
        rw [hprobed, toEmit, hphase]
      have hidle : inHand { w with phase := if reportEvery ≤ w.unreported.probed then .offering
          else .waiting } = [] ∧ toEmit { w with phase := if reportEvery ≤ w.unreported.probed
          then .offering else .waiting } = [] := by
        by_cases hdue : reportEvery ≤ w.unreported.probed
        · rw [if_pos hdue]
          exact ⟨rfl, rfl⟩
        · rw [if_neg hdue]
          exact ⟨rfl, rfl⟩
      refine ⟨?_, ?_⟩
      · rw [hidle.1]
        exact htaken
      · rw [hidle.2, List.append_nil]
        show log.probed = log.emitted ++ w.toEmit
        rw [hprobed, toEmit, hphase]
  | turnedAway => exact absurd rfl hturned
  | offered hphase accepted =>
      simp only [inHand, toEmit, hphase] at htaken hprobed
      exact ⟨htaken, hprobed⟩
  | reported hphase accepted =>
      simp only [inHand, toEmit, hphase] at htaken hprobed
      exact ⟨htaken, hprobed⟩

end Worker

namespace Pool

variable {p p' : Pool} {workers : List Worker}

/-- **What the pool has noted** of its workers. -/
structure Watches (p : Pool) (workers : List Worker) : Prop where
  noted : ∀ (i : Nat) (w : Worker), p.noted[i]? = some true → workers[i]? = some w →
    w.isGone ∧ (w.phase = .tornDown → p.sawTear)
  length : p.noted.length = workers.length
  ended : p.hasEnded → p.noted.all id

/-- A pool of workers that all wait watches them. -/
theorem watches_fresh (count : Nat) : (fresh count).Watches (List.replicate count .fresh) where
  noted i w hnoted _ := by
    rw [fresh, List.getElem?_replicate] at hnoted
    split at hnoted <;> simp at hnoted
  length := by simp [fresh]
  ended h := by cases h

/-- What a pool has noted stays so when a worker does something. -/
theorem Watches.worker (h : p.Watches workers) {i : Nat} {w w' : Worker} {e : WorkerEvent}
    (hw : workers[i]? = some w) (hmoves : w.Moves e w') : p.Watches (workers.set i w') where
  noted j v hnoted hv := by
    by_cases hij : i = j
    · subst hij
      have hgone := (h.noted i w hnoted hw).1
      rw [hmoves.not_gone] at hgone
      cases hgone
    · rw [List.getElem?_set_ne hij] at hv
      exact h.noted j v hnoted hv
  length := by rw [List.length_set, h.length]
  ended := h.ended

/-- All that can happen to a pool. -/
inductive Moves (p : Pool) (workers : List Worker) : PoolEvent → Pool → Prop
  | noted {i : Nat} {w : Worker} (hw : workers[i]? = some w) (hnoted : p.noted[i]? = some false)
    (hgone : w.isGone) :
    Moves p workers (.noted i)
      { p with noted := p.noted.set i true, sawTear := p.sawTear || w.phase = .tornDown }
  | ended (hall : p.noted.all id) (hended : p.hasEnded = false) :
    Moves p workers .ended { p with hasEnded := true }

/-- An event of a pool is one of the ways in which it can go. -/
theorem moves_of_step {e : PoolEvent} (h : p.step workers e = some p') : p.Moves workers e p' := by
  unfold step at h
  split at h
  case h_1 i =>
    split at h
    · next w hw hnoted =>
        split at h
        · next hgone =>
            obtain rfl := Option.some.inj h
            exact .noted hw hnoted hgone
        · cases h
    · cases h
  case h_2 =>
    split at h
    · next hready =>
        obtain rfl := Option.some.inj h
        rw [Bool.and_eq_true, Bool.not_eq_true'] at hready
        exact .ended hready.1 hready.2
    · cases h

/-- A pool that has seen a tear had seen it before, or there is a worker torn down. -/
theorem Moves.tear {e : PoolEvent} (h : p.Moves workers e p') (htear : p'.sawTear) :
    p.sawTear ∨ ∃ w ∈ workers, w.phase = .tornDown := by
  cases h with
  | @noted i w hw hnoted hgone =>
      rcases Bool.or_eq_true_iff.1 htear with htear | htorn
      · exact .inl htear
      · exact .inr ⟨w, List.mem_of_getElem? hw, of_decide_eq_true htorn⟩
  | ended => exact .inl htear

/-- **One event** at a pool keeps what it has noted. -/
theorem Watches.step (h : p.Watches workers) {e : PoolEvent} (hmoves : p.Moves workers e p') :
    p'.Watches workers := by
  cases hmoves with
  | @noted i w hw hnoted hgone =>
      refine ⟨?_, ?_, ?_⟩
      · intro j v hj hv
        by_cases hij : i = j
        · subst hij
          obtain rfl : w = v := Option.some.inj (hw.symm.trans hv)
          exact ⟨hgone, fun htorn => by simp [htorn]⟩
        · rw [List.getElem?_set_ne hij] at hj
          obtain ⟨hgone', htear⟩ := h.noted j v hj hv
          exact ⟨hgone', fun htorn => by simp [htear htorn]⟩
      · rw [List.length_set, h.length]
      · intro hended
        have hfalse : false ∈ p.noted := List.mem_of_getElem? hnoted
        have hall := List.all_eq_true.1 (h.ended hended) false hfalse
        cases hall
  | ended hall hended => exact ⟨h.noted, h.length, fun _ => hall⟩

/-- A pool that has ended notes nothing more. -/
theorem Watches.not_ended (h : p.Watches workers) {e : PoolEvent} (hmoves : p.Moves workers e p') :
    p.hasEnded = false := by
  cases hmoves with
  | noted hw hnoted hgone =>
      cases hended : p.hasEnded with
      | false => rfl
      | true =>
          have hall := List.all_eq_true.1 (h.ended hended) false (List.mem_of_getElem? hnoted)
          cases hall
  | ended hall hended => exact hended

/-- When all workers are noted, all are gone, and a tear was seen if there was one. -/
theorem Watches.all_gone (h : p.Watches workers) (hall : p.noted.all id) :
    ∀ w ∈ workers, w.isGone ∧ (w.phase = .tornDown → p.sawTear) := by
  intro w hw
  obtain ⟨i, hi⟩ := List.mem_iff_getElem?.1 hw
  obtain ⟨hlt, _⟩ := List.getElem?_eq_some_iff.1 hi
  rw [← h.length] at hlt
  have hnoted : p.noted[i] = true := List.all_eq_true.1 hall _ (List.getElem_mem hlt)
  exact h.noted i w (List.getElem?_eq_some_iff.2 ⟨hlt, hnoted⟩) hi

end Pool

end PeerWatch
