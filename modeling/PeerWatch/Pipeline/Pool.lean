import PeerWatch.Pipeline.Worker

/-!
# The pool of workers

The pool takes note of its workers as they go.  When all are gone it ends:
well, unless one of them was torn down.

* `Pool.step` — what an event makes of a pool.
-/

namespace PeerWatch

/-- What joins the workers. -/
structure Pool where
  /-- For every worker, whether the pool has noted that it is gone. -/
  noted : List Bool
  /-- Whether one of the workers noted was torn down. -/
  sawTear : Bool
  hasEnded : Bool
deriving DecidableEq, Repr

inductive PoolEvent where
  | noted (i : Nat)
  | ended
deriving DecidableEq

namespace Pool

/-- A pool that noted no worker yet. -/
def fresh (workers : Nat) : Pool := ⟨List.replicate workers false, false, false⟩

/-- A worker that is gone and was not noted. -/
def next? (p : Pool) (workers : List Worker) : Option Nat :=
  (workers.zip p.noted).findIdx? fun (w, isNoted) => w.isGone && !isNoted

/-- The pool of some workers after an event; nothing, if the event cannot
happen to it. -/
def step (p : Pool) (workers : List Worker) : PoolEvent → Option Pool
  | .noted i =>
    match workers[i]?, p.noted[i]? with
    | some w, some false =>
      if w.isGone then
        some { p with noted := p.noted.set i true, sawTear := p.sawTear || w.phase = .tornDown }
      else none
    | _, _ => none
  | .ended =>
    if p.noted.all id && !p.hasEnded then some { p with hasEnded := true } else none

/-- How a pool ends that has noted all of its workers. -/
def result (p : Pool) : Except PipelineError Unit :=
  if p.sawTear then .error (.torn .probe) else .ok ()

end Pool

end PeerWatch
