/-!
# Deadlines

Calls that take time are given a limit.  A budget spreads one limit over a
sequence of calls: all of them together have to be done by the moment at which
it expires, and a call that is not is cut off there and then.  A call that is
done at the very moment of its deadline counts as done, and one that takes no
time is done even after it.

Moments and spans are whole milliseconds.

* `runUntil` — one call under a deadline;
* `Budget.run` — one call under a budget.
-/

namespace PeerWatch

/-- How a call under a deadline ended, and when. -/
inductive Bounded (α : Type) where
  /-- It was done at a moment, with a value. -/
  | done (time : Nat) (value : α)
  | elapsed (time : Nat)
deriving DecidableEq, Repr

/-- A call begun at `now` that takes `span` milliseconds (never ends, if
`none`), under a deadline. -/
def runUntil {α : Type} (deadline now : Nat) (span : Option Nat) (value : α) : Bounded α :=
  match span with
  | none => .elapsed (max now deadline)
  | some span =>
    if span = 0 ∨ now + span ≤ deadline then .done (now + span) value
    else .elapsed (max now deadline)

/-- One limit for a sequence of calls. -/
structure Budget where
  /-- The whole limit, however much of it is left. -/
  limit : Nat
  expiresAt : Nat
deriving DecidableEq, Repr

namespace Budget

/-- A budget that begins now and expires after the limit. -/
def start (now limit : Nat) : Budget := ⟨limit, now + limit⟩

/-- An operation run within what is left of a budget. -/
def run {α : Type} (b : Budget) (now : Nat) (span : Option Nat) (value : α) : Bounded α :=
  runUntil b.expiresAt now span value

end Budget

end PeerWatch
