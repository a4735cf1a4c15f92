import PeerWatch.Broadcast

/-!
# The shutdown signal

One signal, given at most once, to everyone who had subscribed by then.  A
subscriber takes it once; one that subscribed later never sees it.  Whether it
was given is kept beside the broadcast on which it goes out.

* `Shutdown.trigger`, `Shutdown.subscribe`, `Shutdown.poll`, `Shutdown.receive`.
-/

namespace PeerWatch

/-- The state of the signal. -/
structure Shutdown where
  triggered : Bool
  /-- On which the signal goes to the subscribers. -/
  signals : Broadcast Unit
deriving DecidableEq, Repr

namespace Shutdown

/-- Not given, no subscribers. -/
def fresh : Shutdown := ⟨false, .ofCapacity 1⟩

/-- One more subscriber; its number is the number of those before it. -/
def subscribe (s : Shutdown) : Shutdown := { s with signals := s.signals.subscribe }

/-- Gives the signal, if it was not given before; the answer is whether it
was given now.  It does not matter if there is nobody to hear it. -/
def trigger (s : Shutdown) : Shutdown × Bool :=
  if s.triggered then (s, false) else (⟨true, (s.signals.send? ()).getD s.signals⟩, true)

/-- For every subscriber, in the order of subscription, whether a signal
waits for it. -/
def waiting (s : Shutdown) : List Bool := s.signals.unseen.map (0 < ·)

/-- Whether a subscriber has a signal before it that it did not take yet. -/
def waitsFor (s : Shutdown) (subscriber : Nat) : Bool := 0 < s.signals.lag subscriber

/-- A subscriber looks for the signal, which it takes if it is there. -/
def poll (s : Shutdown) (subscriber : Nat) : Shutdown × Receipt Unit :=
  let received := s.signals.receive subscriber
  ({ s with signals := received.1 }, received.2)

/-- Takes the signal for a subscriber; the answer is whether a wait for it ends
here. -/
def receive (s : Shutdown) (subscriber : Nat) : Shutdown × Bool :=
  let polled := s.poll subscriber
  (polled.1, polled.2 ≠ .nothing)

/-- The signal is there for a subscriber that it waits for. -/
theorem receive_snd (s : Shutdown) (subscriber : Nat) :
    (s.receive subscriber).2 = s.waitsFor subscriber :=
  decide_eq_decide.2 <|
    (not_congr Broadcast.receive_snd_eq_nothing_iff).trans Nat.pos_iff_ne_zero.symm

/-- Who takes the signal does not take it back. -/
theorem triggered_receive (s : Shutdown) (subscriber : Nat) :
    (s.receive subscriber).1.triggered = s.triggered := rfl

/-- Whoever gives the signal, it was given. -/
theorem triggered_trigger (s : Shutdown) : s.trigger.1.triggered := by
  unfold trigger
  split
  · assumption
  · rfl

/-- Whoever subscribed is counted, signalled or not. -/
theorem length_waiting (s : Shutdown) : s.waiting.length = s.signals.unseen.length :=
  List.length_map _

/-- A signal brings no subscriber and takes none away. -/
theorem length_waiting_trigger (s : Shutdown) : s.trigger.1.waiting.length = s.waiting.length := by
  rw [length_waiting, length_waiting, trigger]
  split
  · rfl
  · cases hsend : s.signals.send? () with
    | none => rfl
    | some signals => exact Broadcast.length_unseen_of_send? hsend

/-- Asking for the signal takes no subscriber away. -/
theorem length_waiting_poll (s : Shutdown) (subscriber : Nat) :
    (s.poll subscriber).1.waiting.length = s.waiting.length := by
  rw [length_waiting, length_waiting]
  exact s.signals.length_unseen_receive subscriber

end Shutdown

/-- What asks the prober to end. -/
inductive Termination where
  | interrupt
  | terminate
deriving DecidableEq, Repr

/-- The name of the host's signal. -/
def Termination.name : Termination → String
  | .interrupt => "SIGINT"
  | .terminate => "SIGTERM"

end PeerWatch
