/-!
# Broadcasts

A broadcast hands every value that is sent to each subscriber it has by then;
a subscriber goes through the values at its own pace and takes none of them
away from the others.  Only the last values are kept, as many as its capacity:
a subscriber that falls further behind is told how many it has missed and goes
on with the oldest value that is kept.  A value is turned away while there are
no subscribers.  Nobody unsubscribes; one that looks for values no more takes
nothing from the others.

* `subscribe`, `send?`, `receive`.
-/

namespace PeerWatch

/-- Values under way to subscribers. -/
structure Broadcast (α : Type) where
  capacity : Nat
  /-- The last values sent, the newest first, at most `capacity` of them. -/
  kept : List α
  /-- For every subscriber, in the order of subscription, how many of the values
  sent since it has yet to be handed. -/
  unseen : List Nat
deriving DecidableEq, Repr

/-- What a subscriber is handed that does not wait for a value. -/
inductive Receipt (α : Type) where
  | nothing
  | value (v : α)
  /-- So many of the values it had yet to be handed are not kept any more. -/
  | missed (count : Nat)
deriving DecidableEq, Repr

namespace Broadcast

variable {α : Type}

/-- A broadcast without values and subscribers. -/
def ofCapacity (capacity : Nat) : Broadcast α := ⟨capacity, [], []⟩

/-- One more subscriber; its number is the number of those before it. -/
def subscribe (b : Broadcast α) : Broadcast α := { b with unseen := b.unseen ++ [0] }

/-- How many values a subscriber is behind. -/
def lag (b : Broadcast α) (subscriber : Nat) : Nat := (b.unseen[subscriber]?).getD 0

/-- A value sent to everyone there is, if there is someone. -/
def send? (b : Broadcast α) (v : α) : Option (Broadcast α) :=
  if b.unseen.isEmpty then none
  else some { b with kept := (v :: b.kept).take b.capacity, unseen := b.unseen.map (· + 1) }

/-- The next value for a subscriber, if there is one. -/
def receive (b : Broadcast α) (subscriber : Nat) : Broadcast α × Receipt α :=
  match b.lag subscriber with
  | 0 => (b, .nothing)
  | n + 1 =>
    match b.kept[n]? with
    | some v => ({ b with unseen := b.unseen.set subscriber n }, .value v)
    | none =>
      ({ b with unseen := b.unseen.set subscriber b.kept.length }, .missed (n + 1 - b.kept.length))

variable {b b' : Broadcast α} {v : α} {i j n : Nat}

/-- Only a subscriber is behind. -/
theorem lt_length_of_lag (h : 0 < b.lag i) : i < b.unseen.length := by
  rw [lag] at h
  by_cases hi : i < b.unseen.length
  · exact hi
  · rw [List.getElem?_eq_none (Nat.le_of_not_lt hi)] at h
    cases h

/-- Who subscribes is not behind, and nobody falls behind by it. -/
@[simp] theorem lag_subscribe (b : Broadcast α) (i : Nat) : b.subscribe.lag i = b.lag i := by
  rw [lag, subscribe, lag, List.getElem?_append]
  split
  · rfl
  · next hi =>
      rw [List.getElem?_eq_none (Nat.le_of_not_lt hi)]
      cases i - b.unseen.length <;> rfl

/-- A value is refused only where there is nobody to get it. -/
theorem send?_eq_none_iff : b.send? v = none ↔ b.unseen = [] := by
  unfold send?
  split <;> simp_all

/-- A value that is sent is one more for every subscriber there is. -/
theorem lag_of_send? (h : b.send? v = some b') (i : Nat) :
    b'.lag i = if i < b.unseen.length then b.lag i + 1 else 0 := by
  unfold send? at h
  split at h
  · cases h
  · obtain rfl := Option.some.inj h
    rw [lag, lag, List.getElem?_map]
    split
    · next hi => rw [List.getElem?_eq_getElem hi]; rfl
    · next hi => rw [List.getElem?_eq_none (Nat.le_of_not_lt hi)]; rfl

/-- The value sent is the first of those that are kept. -/
theorem kept_of_send? (h : b.send? v = some b') :
    b'.capacity = b.capacity ∧ b'.kept = (v :: b.kept).take b.capacity := by
  unfold send? at h
  split at h
  · cases h
  · obtain rfl := Option.some.inj h
    exact ⟨rfl, rfl⟩

/-- Sending brings no subscriber and takes none away. -/
theorem length_unseen_of_send? (h : b.send? v = some b') : b'.unseen.length = b.unseen.length := by
  unfold send? at h
  split at h
  · cases h
  · obtain rfl := Option.some.inj h
    exact List.length_map _

/-- Who is not behind gets nothing, and nothing changes. -/
theorem receive_of_lag_eq_zero (h : b.lag i = 0) : b.receive i = (b, .nothing) := by
  rw [receive, h]

/-- Who is behind by no more than is kept gets the oldest value that it did not see. -/
theorem receive_of_kept (h : b.lag i = n + 1) (hkept : b.kept[n]? = some v) :
    b.receive i = ({ b with unseen := b.unseen.set i n }, .value v) := by
  rw [receive, h]
  simp only [hkept]

/-- Who is handed the value that it was behind by is that much less behind, and only it. -/
theorem lag_receive_of_kept (h : b.lag i = n + 1) (hkept : b.kept[n]? = some v) (j : Nat) :
    (b.receive i).1.lag j = if j = i then n else b.lag j := by
  have hi : i < b.unseen.length := lt_length_of_lag (h ▸ Nat.succ_pos n)
  rw [receive_of_kept h hkept, lag, List.getElem?_set]
  by_cases hj : i = j
  · rw [if_pos hj, if_pos hi, if_pos hj.symm]
    rfl
  · rw [if_neg hj, if_neg (Ne.symm hj)]
    rfl

/-- A subscriber is handed nothing exactly if it is not behind. -/
theorem receive_snd_eq_nothing_iff : (b.receive i).2 = .nothing ↔ b.lag i = 0 := by
  unfold receive
  split
  · next h => simp [h]
  · next h =>
      rw [h]
      split <;> simp

/-- Whoever is handed a value leaves it to the others. -/
theorem kept_receive (b : Broadcast α) (i : Nat) :
    (b.receive i).1.capacity = b.capacity ∧ (b.receive i).1.kept = b.kept := by
  unfold receive
  split
  · exact ⟨rfl, rfl⟩
  · split <;> exact ⟨rfl, rfl⟩

/-- Receiving takes no subscriber away. -/
@[simp] theorem length_unseen_receive (b : Broadcast α) (i : Nat) :
    (b.receive i).1.unseen.length = b.unseen.length := by
  unfold receive
  split
  · rfl
  · split <;> exact List.length_set

end Broadcast

end PeerWatch
