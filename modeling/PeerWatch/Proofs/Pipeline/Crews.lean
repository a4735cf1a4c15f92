import Mathlib.Data.List.Induction
import PeerWatch.Proofs.Pipeline.Systems

/-!
# What the workers did together

The chronicle keeps what the workers did with the number of the one who did it.
The order in which different workers came is left open; so what each of them did
is known one after another, and what all of them did only up to the order.

* `Worker.held` — the target that a worker has to answer for;
* `Chronicle.perm_of_each` — from what each worker did to what all of them did.
-/

namespace PeerWatch

namespace Worker

/-- The target that a worker took and has not handed on an outcome of. -/
def held (w : Worker) : List TargetId := w.toEmit.map (·.target) ++ w.inHand.map (·.id)

/-- Of what a worker took it handed on an outcome, but for what it holds. -/
theorem Handles.taken_eq {w : Worker} {log : WorkerLog} (h : w.Handles log) :
    log.taken.map (·.id) = log.emitted.map (·.target) ++ w.held := by
  rw [h.taken, h.probed, List.map_append, List.append_assoc]
  rfl

/-- A worker that is gone holds nothing. -/
theorem held_of_isGone {w : Worker} (h : w.isGone) : w.held = [] ∧ w.toEmit = [] := by
  have hphase : w.phase = .ended ∨ w.phase = .tornDown := by simpa [isGone] using h
  rcases hphase with hphase | hphase <;> simp [held, toEmit, inHand, hphase]

end Worker

namespace Chronicle

variable {α β : Type}

/-- What was done, in another form, was done by the same ones. -/
theorem doneBy_map (i : Nat) (f : α → β) (done : List (Nat × α)) :
    doneBy i (done.map fun d => (d.1, f d.2)) = (doneBy i done).map f := by
  simp [doneBy, List.filter_map, Function.comp_def]

/-- What the workers did is as much for all of them as it is for each. -/
theorem length_eq_of_doneBy {done : List (Nat × α)} {done' : List (Nat × β)}
    (h : ∀ i, (doneBy i done).length = (doneBy i done').length) : done.length = done'.length := by
  have hcount : ∀ {γ : Type} (i : Nat) (done : List (Nat × γ)),
      (done.map (·.1)).count i = (doneBy i done).length := by
    intro γ i done
    rw [List.count_eq_length_filter, List.filter_map, List.length_map, doneBy, List.length_map]
    congr 1
  have hperm : (done.map (·.1)).Perm (done'.map (·.1)) := by
    rw [List.perm_iff_count]
    intro i
    rw [hcount, hcount]
    exact h i
  simpa using hperm.length_eq

variable [DecidableEq α]

/-- Somebody did a thing as often as it is noted with them. -/
theorem count_doneBy (i : Nat) (x : α) (done : List (Nat × α)) :
    (doneBy i done).count x = done.count (i, x) := by
  induction done with
  | nil => rfl
  | cons d rest ih =>
      rw [← List.singleton_append, doneBy_append, List.count_append, List.count_append, ih]
      obtain ⟨j, y⟩ := d
      by_cases hij : j = i
      · subst hij
        simp [doneBy, List.count_singleton]
      · simp [doneBy, hij]

/-- What each of the workers did, in whatever order, is what all of them did. -/
theorem perm_of_doneBy {done done' : List (Nat × α)}
    (h : ∀ i, (doneBy i done).Perm (doneBy i done')) : done.Perm done' := by
  rw [List.perm_iff_count]
  rintro ⟨i, x⟩
  rw [← count_doneBy, ← count_doneBy, (h i).count_eq]

/-- If each worker did what it did otherwise and some more, all of them did what
they did otherwise and all of that. -/
theorem perm_of_each (workers : List Worker) (more : Worker → List α) (done rest : List (Nat × α))
    (hworker : ∀ i w, workers[i]? = some w → doneBy i done = doneBy i rest ++ more w)
    (hnobody : ∀ i, workers[i]? = none → doneBy i done = doneBy i rest) :
    (done.map (·.2)).Perm (rest.map (·.2) ++ workers.flatMap more) := by
  induction workers using List.reverseRecOn generalizing rest with
  | nil =>
      have hperm : done.Perm rest := perm_of_doneBy fun i => .of_eq (hnobody i rfl)
      simpa using hperm.map (·.2)
  | append_singleton front w ih =>
      -- what the last worker did more is put to the rest
      have hlast : ∀ i, doneBy i (rest ++ (more w).map fun x => (front.length, x)) =
          doneBy i rest ++ if i = front.length then more w else [] := by
        intro i
        rw [doneBy_append]
        by_cases hi : i = front.length
        · rw [if_pos hi, hi, doneBy_self]
        · rw [if_neg hi, doneBy_ne (Ne.symm hi)]
      have hperm := ih (rest ++ (more w).map fun x => (front.length, x)) ?_ ?_
      · have hown : ((more w).map fun x => (front.length, x)).map (·.2) = more w := by
          simp [Function.comp_def]
        rw [List.map_append, hown, List.append_assoc] at hperm
        refine hperm.trans (List.Perm.append_left _ ?_)
        rw [List.flatMap_append, List.flatMap_singleton]
        exact List.perm_append_comm
      · intro i v hv
        obtain ⟨hlt, _⟩ := List.getElem?_eq_some_iff.1 hv
        rw [hlast, if_neg (Nat.ne_of_lt hlt), List.append_nil]
        refine hworker i v ?_
        rw [List.getElem?_append_left hlt]
        exact hv
      · intro i hnone
        rw [hlast]
        have hle : front.length ≤ i := List.getElem?_eq_none_iff.1 hnone
        by_cases hi : i = front.length
        · rw [if_pos hi]
          exact hworker i w (by simp [hi])
        · rw [if_neg hi, List.append_nil]
          refine hnobody i (List.getElem?_eq_none_iff.2 ?_)
          rw [List.length_append, List.length_singleton]
          omega

end Chronicle

end PeerWatch
