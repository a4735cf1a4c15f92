import PeerWatch.Shutdown
import Mathlib.Data.List.Induction

/-!
# Who is handed the signal

Anybody may subscribe to the signal, give it, ask whether it was given, or look
for it, at any time and in any order.  Two things are kept for that, whether the
signal was given and a broadcast with room for one value.  Only the first who
gives the signal sends it, so the broadcast is never asked to keep a second
value, and nobody misses the one that there is.

* `Shutdown.Act`, `Shutdown.act`, `Shutdown.transcript` — what can be done with a
  signal, and what is answered;
* `Shutdown.Reaches`, `Shutdown.IsDue` — whom the signal goes to, and who has yet to
  be handed it, by what was done alone;
* `Shutdown.Recalls`, `Shutdown.Recalls.step` — the signal as what was done has left it;
* `Shutdown.signal_is_handed_out_once`.
-/

namespace PeerWatch

namespace Shutdown

/-- What can be done with a signal. -/
inductive Act where
  | subscribe
  | trigger
  /-- Somebody asks whether the signal was given. -/
  | ask
  | poll (subscriber : Nat)
deriving DecidableEq

/-- What is answered to an act. -/
inductive Answer where
  /-- The number of the new subscriber. -/
  | subscribed (subscriber : Nat)
  /-- Whether the signal was given by this act. -/
  | triggered (isFirst : Bool)
  | shown (isTriggered : Bool)
  | handed (receipt : Receipt Unit)
deriving DecidableEq

/-- One act, and the answer to it. -/
def act (s : Shutdown) : Act → Shutdown × Answer
  | .subscribe => (s.subscribe, .subscribed s.waiting.length)
  | .trigger => (s.trigger.1, .triggered s.trigger.2)
  | .ask => (s, .shown s.triggered)
  | .poll subscriber => ((s.poll subscriber).1, .handed (s.poll subscriber).2)

/-- The signal after acts one after another. -/
def after (s : Shutdown) (acts : List Act) : Shutdown := acts.foldl (fun s a => (s.act a).1) s

/-- The answers to acts one after another. -/
def transcript (s : Shutdown) : List Act → List Answer
  | [] => []
  | a :: rest => (s.act a).2 :: (s.act a).1.transcript rest

section Transcripts

variable (s : Shutdown)

@[simp] theorem length_transcript (acts : List Act) :
    (s.transcript acts).length = acts.length := by
  induction acts generalizing s with
  | nil => rfl
  | cons a rest ih => exact congrArg (· + 1) (ih _)

/-- What comes later is answered as what comes first has left the signal. -/
theorem transcript_append (past more : List Act) :
    s.transcript (past ++ more) = s.transcript past ++ (s.after past).transcript more := by
  induction past generalizing s with
  | nil => rfl
  | cons a rest ih => exact congrArg (_ :: ·) (ih _)

theorem after_append_singleton (past : List Act) (a : Act) :
    s.after (past ++ [a]) = ((s.after past).act a).1 := List.foldl_append

/-- What is answered to an act does not hang on what is done later. -/
theorem getElem?_transcript (past rest : List Act) (a : Act) :
    (s.transcript (past ++ a :: rest))[past.length]? = some ((s.after past).act a).2 := by
  rw [transcript_append, List.getElem?_append_right (by simp)]
  simp [transcript]

end Transcripts

section Histories

variable {acts : List Act} {a : Act}

/-- What was done before the signal was first given. -/
def beforehand (acts : List Act) : List Act := acts.takeWhile (· ≠ .trigger)

/-- What was done from then on. -/
def since (acts : List Act) : List Act := acts.dropWhile (· ≠ .trigger)

/-- The signal goes to a subscriber: it was given, and not before the subscriber was there. -/
def Reaches (acts : List Act) (subscriber : Nat) : Prop :=
  .trigger ∈ acts ∧ subscriber < (beforehand acts).count .subscribe

/-- The signal is due to a subscriber: it goes to the subscriber, who has not looked since. -/
def IsDue (acts : List Act) (subscriber : Nat) : Prop :=
  Reaches acts subscriber ∧ .poll subscriber ∉ since acts

instance (acts : List Act) (subscriber : Nat) : Decidable (Reaches acts subscriber) :=
  inferInstanceAs (Decidable (_ ∧ _))

instance (acts : List Act) (subscriber : Nat) : Decidable (IsDue acts subscriber) :=
  inferInstanceAs (Decidable (_ ∧ _))

section Cuts

variable {past : List Act} (h : .trigger ∉ past)
include h

/-- What was before a signal is before it. -/
theorem beforehand_append_trigger (rest : List Act) :
    beforehand (past ++ .trigger :: rest) = past := by
  have hpast : ∀ a ∈ past, decide (a ≠ .trigger) := fun a ha =>
    decide_eq_true fun htrigger => h (htrigger ▸ ha)
  rw [beforehand, List.takeWhile_append_of_pos hpast]
  exact List.append_nil _

/-- What was since a signal begins with it. -/
theorem since_append_trigger (rest : List Act) :
    since (past ++ .trigger :: rest) = .trigger :: rest := by
  have hpast : ∀ a ∈ past, decide (a ≠ .trigger) := fun a ha =>
    decide_eq_true fun htrigger => h (htrigger ▸ ha)
  rw [since, List.dropWhile_append_of_pos hpast]
  rfl

end Cuts

/-- Once the signal was given, all that follows is since it. -/
theorem since_append (h : .trigger ∈ acts) (more : List Act) :
    since (acts ++ more) = since acts ++ more := by
  obtain ⟨past, rest, rfl, hpast⟩ := List.eq_append_cons_of_mem h
  rw [List.append_assoc, List.cons_append, since_append_trigger hpast, since_append_trigger hpast,
    List.cons_append]

/-- Once the signal was given, it is settled whom it goes to. -/
theorem reaches_append (h : .trigger ∈ acts) (more : List Act) (i : Nat) :
    Reaches (acts ++ more) i ↔ Reaches acts i := by
  obtain ⟨past, rest, rfl, hpast⟩ := List.eq_append_cons_of_mem h
  rw [List.append_assoc, List.cons_append, Reaches, Reaches, beforehand_append_trigger hpast,
    beforehand_append_trigger hpast]
  simp

/-- When it is first given, the signal goes to all subscribers there are. -/
theorem reaches_append_trigger (h : .trigger ∉ acts) (i : Nat) :
    Reaches (acts ++ [.trigger]) i ↔ i < acts.count .subscribe := by
  rw [Reaches, beforehand_append_trigger h]
  simp

/-- Only to look for the signal makes that it is due no more. -/
theorem isDue_append (ha : a ≠ .trigger) (i : Nat) :
    IsDue (acts ++ [a]) i ↔ IsDue acts i ∧ a ≠ .poll i := by
  by_cases h : .trigger ∈ acts
  · rw [IsDue, IsDue, reaches_append h, since_append h, List.mem_append, List.mem_singleton,
      not_or, and_assoc, ne_comm]
  · have hnow : .trigger ∉ acts ++ [a] := by simp [h, ha.symm]
    exact ⟨fun hdue => absurd hdue.1.1 hnow, fun hdue => absurd hdue.1.1.1 h⟩

/-- It makes no difference that the signal is given again. -/
theorem isDue_append_trigger_of_mem (h : .trigger ∈ acts) (i : Nat) :
    IsDue (acts ++ [.trigger]) i ↔ IsDue acts i := by
  rw [IsDue, IsDue, reaches_append h, since_append h]
  simp

/-- The first signal is due to whoever has subscribed by then. -/
theorem isDue_append_trigger_of_notMem (h : .trigger ∉ acts) (i : Nat) :
    IsDue (acts ++ [.trigger]) i ↔ i < acts.count .subscribe := by
  rw [IsDue, reaches_append_trigger h, since_append_trigger h]
  simp

end Histories

section Recalling

variable {s : Shutdown} {acts : List Act}

/-- **What a signal recalls** of what was done with it: whether it was given, how many have
subscribed, and to whom it is due.  They are one value behind, which is kept for them. -/
structure Recalls (s : Shutdown) (acts : List Act) : Prop where
  triggered : s.triggered = decide (.trigger ∈ acts)
  subscribers : s.signals.unseen.length = acts.count .subscribe
  lag : ∀ i, s.signals.lag i = if IsDue acts i then 1 else 0
  capacity : s.signals.capacity = 1
  kept : ∀ i, IsDue acts i → s.signals.kept[0]? = some ()

theorem recalls_fresh : fresh.Recalls [] where
  triggered := rfl
  subscribers := rfl
  lag _ := rfl
  capacity := rfl
  kept _ h := nomatch h.1.1

/-- Who is due the signal is behind by just that one. -/
theorem Recalls.lag_of_isDue (h : s.Recalls acts) {i : Nat} (hdue : IsDue acts i) :
    s.signals.lag i = 1 := by
  rw [h.lag, if_pos hdue]

/-- Who is not due the signal is not behind. -/
theorem Recalls.lag_of_not_isDue (h : s.Recalls acts) {i : Nat} (hdue : ¬IsDue acts i) :
    s.signals.lag i = 0 := by
  rw [h.lag, if_neg hdue]

theorem Recalls.subscribe (h : s.Recalls acts) : s.subscribe.Recalls (acts ++ [.subscribe]) where
  triggered := by simpa [Shutdown.subscribe] using h.triggered
  subscribers := by simp [Shutdown.subscribe, Broadcast.subscribe, h.subscribers]
  lag i := by simp [Shutdown.subscribe, h.lag, isDue_append]
  capacity := h.capacity
  kept i hdue := h.kept i ((isDue_append (by simp) i).1 hdue).1

theorem Recalls.ask (h : s.Recalls acts) : s.Recalls (acts ++ [.ask]) where
  triggered := by simpa using h.triggered
  subscribers := by simp [h.subscribers]
  lag i := by simp [h.lag, isDue_append]
  capacity := h.capacity
  kept i hdue := h.kept i ((isDue_append (by simp) i).1 hdue).1

/-- The signal is sent once at most: the broadcast holds nothing else when it is. -/
theorem Recalls.trigger (h : s.Recalls acts) : s.trigger.1.Recalls (acts ++ [.trigger]) := by
  have hsubscribers : s.signals.unseen.length = (acts ++ [Act.trigger]).count .subscribe := by
    simp [h.subscribers]
  by_cases hgiven : .trigger ∈ acts
  · rw [Shutdown.trigger, if_pos (h.triggered.trans (decide_eq_true hgiven))]
    exact {
      triggered := by simp [h.triggered, hgiven]
      subscribers := hsubscribers
      lag := fun i => (h.lag i).trans (if_congr (isDue_append_trigger_of_mem hgiven i).symm rfl rfl)
      capacity := h.capacity
      kept := fun i hdue => h.kept i ((isDue_append_trigger_of_mem hgiven i).1 hdue) }
  · have htriggered : ¬s.triggered := by simp [h.triggered, hgiven]
    have hlag (i : Nat) : s.signals.lag i = 0 := h.lag_of_not_isDue fun hdue => hgiven hdue.1.1
    rw [Shutdown.trigger, if_neg htriggered]
    cases hsend : s.signals.send? () with
    | none =>
        have hnobody (i : Nat) : ¬IsDue (acts ++ [.trigger]) i := by
          rw [isDue_append_trigger_of_notMem hgiven, ← h.subscribers,
            Broadcast.send?_eq_none_iff.1 hsend]
          exact Nat.not_lt_zero i
        exact {
          triggered := by simp
          subscribers := hsubscribers
          lag := fun i => (hlag i).trans (if_neg (hnobody i)).symm
          capacity := h.capacity
          kept := fun i hdue => absurd hdue (hnobody i) }
    | some signals =>
        obtain ⟨hcapacity, hkept⟩ := Broadcast.kept_of_send? hsend
        exact {
          triggered := by simp
          subscribers := (Broadcast.length_unseen_of_send? hsend).trans hsubscribers
          lag := fun i => by
            rw [Option.getD_some, Broadcast.lag_of_send? hsend, hlag, h.subscribers]
            exact if_congr (isDue_append_trigger_of_notMem hgiven i).symm rfl rfl
          capacity := hcapacity.trans h.capacity
          kept := fun i _ => by
            rw [Option.getD_some, hkept, h.capacity]
            rfl }

/-- A look for the signal, recalled: whoever was due it is no longer. -/
theorem Recalls.poll (h : s.Recalls acts) (i : Nat) : (s.poll i).1.Recalls (acts ++ [.poll i]) := by
  obtain ⟨hcapacity, hkept⟩ := s.signals.kept_receive i
  have hdue (j : Nat) : IsDue (acts ++ [.poll i]) j ↔ IsDue acts j ∧ j ≠ i := by
    rw [isDue_append (by simp)]
    simp [eq_comm]
  exact {
    triggered := by simpa [Shutdown.poll] using h.triggered
    subscribers := by simp [Shutdown.poll, h.subscribers]
    lag := fun j => by
      show (s.signals.receive i).1.lag j = _
      rw [if_congr (hdue j) rfl rfl]
      by_cases hi : IsDue acts i
      · rw [Broadcast.lag_receive_of_kept (h.lag_of_isDue hi) (h.kept i hi), h.lag]
        by_cases hj : j = i <;> simp [hj]
      · rw [Broadcast.receive_of_lag_eq_zero (h.lag_of_not_isDue hi), h.lag]
        refine if_congr (iff_self_and.2 fun hj hji => hi (hji ▸ hj)) rfl rfl
    capacity := hcapacity.trans h.capacity
    kept := fun j hj => by
      show (s.signals.receive i).1.kept[0]? = _
      rw [hkept]
      exact h.kept j ((hdue j).1 hj).1 }

/-- **One act** is recalled with those before it. -/
theorem Recalls.step (h : s.Recalls acts) (a : Act) : (s.act a).1.Recalls (acts ++ [a]) :=
  match a with
  | .subscribe => h.subscribe
  | .trigger => h.trigger
  | .ask => h.ask
  | .poll i => h.poll i

/-- **A signal recalls all that was done with it.** -/
theorem recalls_after (acts : List Act) : (fresh.after acts).Recalls acts := by
  induction acts using List.reverseRec with
  | nil => exact recalls_fresh
  | append_singleton past a ih =>
      rw [after_append_singleton]
      exact ih.step a

/-- The signal is given by the first who gives it. -/
theorem Recalls.trigger_snd (h : s.Recalls acts) : s.trigger.2 = decide (.trigger ∉ acts) := by
  rw [Shutdown.trigger, h.triggered]
  by_cases hgiven : .trigger ∈ acts <;> simp [hgiven]

/-- Nobody has missed a value, for there is one, and it is kept. -/
theorem Recalls.poll_snd (h : s.Recalls acts) (i : Nat) :
    (s.poll i).2 = if IsDue acts i then .value () else .nothing := by
  show (s.signals.receive i).2 = _
  split
  · next hdue => rw [Broadcast.receive_of_kept (h.lag_of_isDue hdue) (h.kept i hdue)]
  · next hdue => rw [Broadcast.receive_of_lag_eq_zero (h.lag_of_not_isDue hdue)]

/-- A wait for the signal ends exactly if the signal is due. -/
theorem Recalls.receive_snd_eq (h : s.Recalls acts) (i : Nat) :
    (s.receive i).2 = decide (IsDue acts i) := by
  rw [receive_snd, waitsFor, h.lag]
  by_cases hdue : IsDue acts i <;> simp [hdue]

end Recalling

section Handing

/-- The acts on a new signal, each with the answer to it. -/
def log (acts : List Act) : List (Act × Answer) := acts.zip (fresh.transcript acts)

theorem log_append_singleton (acts : List Act) (a : Act) :
    log (acts ++ [a]) = log acts ++ [(a, ((fresh.after acts).act a).2)] := by
  rw [log, transcript_append, List.zip_append (length_transcript fresh acts).symm]
  rfl

/-- Whoever is handed the signal looks for it, and it is due. -/
theorem act_snd_eq_handed_iff (acts : List Act) (a : Act) (i : Nat) :
    (a, ((fresh.after acts).act a).2) = (.poll i, .handed (.value ())) ↔
      a = .poll i ∧ IsDue acts i := by
  rw [Prod.mk.injEq]
  refine and_congr_right ?_
  rintro rfl
  rw [act, (recalls_after acts).poll_snd, Answer.handed.injEq]
  split <;> simp [*]

/-- Whoever has looked for the signal since it was given had it due, or has just done so. -/
theorem looked_append_iff (acts : List Act) (a : Act) (i : Nat) :
    Reaches (acts ++ [a]) i ∧ .poll i ∈ since (acts ++ [a]) ↔
      (Reaches acts i ∧ .poll i ∈ since acts) ∨ (a = .poll i ∧ IsDue acts i) := by
  by_cases hgiven : .trigger ∈ acts
  · rw [reaches_append hgiven, since_append hgiven, List.mem_append, List.mem_singleton, IsDue,
      eq_comm]
    by_cases hlooked : .poll i ∈ since acts <;> simp [hlooked, and_comm]
  · constructor
    · rintro ⟨⟨hnow, -⟩, hlooked⟩
      obtain rfl : a = .trigger := by simpa [hgiven, eq_comm] using hnow
      rw [since_append_trigger hgiven] at hlooked
      simp at hlooked
    · rintro (⟨hreaches, -⟩ | ⟨-, hreaches, -⟩) <;> exact absurd hreaches.1 hgiven

/-- Somebody is handed the signal once, if it reaches them and they look for it; otherwise
never. -/
theorem count_log (acts : List Act) (i : Nat) :
    (log acts).count (.poll i, .handed (.value ())) =
      if Reaches acts i ∧ .poll i ∈ since acts then 1 else 0 := by
  induction acts using List.reverseRec with
  | nil => rfl
  | append_singleton past a ih =>
      rw [log_append_singleton, List.count_append, ih, List.count_singleton,
        if_congr (looked_append_iff past a i) rfl rfl]
      simp only [beq_iff_eq, act_snd_eq_handed_iff]
      by_cases hhanded : a = .poll i ∧ IsDue past i
      · have hbefore : ¬(Reaches past i ∧ .poll i ∈ since past) := fun h => hhanded.2.2 h.2
        rw [if_neg hbefore, if_pos hhanded, if_pos (.inr hhanded)]
      · rw [if_neg hhanded, Nat.add_zero, if_congr (or_iff_left hhanded) rfl rfl]

end Handing

/-- **The signal is handed out once.**  Whatever is done with a new signal, in whatever order
and by however many: the first who gives it is told so, and nobody after; whoever asks is told
whether it was given before; and a subscriber that looks for it is handed it if it was given
when the subscriber was there and the subscriber has not looked since, and otherwise finds
nothing, not even that something was missed.  So a subscriber is handed it once in all if the
subscriber was there when it was first given and has looked for it from then on, and never
otherwise, however often it is given again; and a wait for it would end at exactly those times
when it is due. -/
theorem signal_is_handed_out_once :
    (∀ past rest : List Act,
      (fresh.transcript (past ++ .subscribe :: rest))[past.length]? =
        some (.subscribed (past.count .subscribe)) ∧
      (fresh.transcript (past ++ .trigger :: rest))[past.length]? =
        some (.triggered (decide (.trigger ∉ past))) ∧
      (fresh.transcript (past ++ .ask :: rest))[past.length]? =
        some (.shown (decide (.trigger ∈ past))) ∧
      ∀ i, (fresh.transcript (past ++ .poll i :: rest))[past.length]? =
        some (.handed (if IsDue past i then .value () else .nothing))) ∧
    ∀ (acts : List Act) (i : Nat),
      (log acts).count (.poll i, .handed (.value ())) =
        (if Reaches acts i ∧ .poll i ∈ since acts then 1 else 0) ∧
      ((fresh.after acts).receive i).2 = decide (IsDue acts i) := by
  refine ⟨fun past rest => ?_, fun acts i => ⟨count_log acts i, ?_⟩⟩
  · refine ⟨?_, ?_, ?_, fun i => ?_⟩ <;> rw [getElem?_transcript, act]
    · rw [length_waiting, (recalls_after past).subscribers]
    · rw [(recalls_after past).trigger_snd]
    · rw [(recalls_after past).triggered]
    · rw [(recalls_after past).poll_snd]
  · exact (recalls_after acts).receive_snd_eq i

/-- A subscriber that comes too late finds nothing, however often the signal is given. -/
example :
    fresh.transcript [.subscribe, .trigger, .subscribe, .trigger, .ask, .poll 0, .poll 0, .poll 1] =
      [.subscribed 0, .triggered true, .subscribed 1, .triggered false, .shown true,
        .handed (.value ()), .handed .nothing, .handed .nothing] := by
  decide

end Shutdown

end PeerWatch
