/-!
# Channels

A channel holds up to so many messages in the order in which they were put
in.  Its receiving end can be closed: what it holds is lost then, and nothing
more is taken.

* `push?`, `pop?`, `close`.
-/

namespace PeerWatch

/-- Messages under way, at most `capacity` of them. -/
structure Channel (α : Type) where
  capacity : Nat
  queue : List α
  isOpen : Bool
deriving DecidableEq, Repr

namespace Channel

/-- The most messages a channel can be made for: 2^61 - 1. -/
def bound : Nat := 2305843009213693951

/-- Whether a channel can be made for so many messages. -/
def isCapacity (capacity : Nat) : Bool := 0 < capacity && capacity ≤ bound

variable {α : Type}

/-- An open channel without messages. -/
def ofCapacity (capacity : Nat) : Channel α := ⟨capacity, [], true⟩

/-- How many more messages a channel takes; one that is closed takes none. -/
def room (c : Channel α) : Nat := if c.isOpen then c.capacity - c.queue.length else 0

/-- A message put in at the end, if there is room. -/
def push? (c : Channel α) (message : α) : Option (Channel α) :=
  if 0 < c.room then some { c with queue := c.queue ++ [message] } else none

/-- The first message taken out, if there is one. -/
def pop? (c : Channel α) : Option (α × Channel α) :=
  match c.queue with
  | [] => none
  | message :: rest => some (message, { c with queue := rest })

/-- The receiver goes: what was queued is lost, and nothing more is taken. -/
def close (c : Channel α) : Channel α := { c with queue := [], isOpen := false }

end Channel

end PeerWatch
