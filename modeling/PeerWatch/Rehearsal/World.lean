import PeerWatch.Pipeline.System
import PeerWatch.Rehearsal.Cast
import PeerWatch.Rehearsal.Clock
import PeerWatch.Rehearsal.ScriptedStore

/-!
# The world of a rehearsal

A rehearsal plays a pipeline, or some parts of it with stand-ins around them,
on a clock of its own.  The parts make the moves of the pipeline as soon as
they can; where several wait for the same thing, the one that has waited
longest goes first.

* `World` — the pipeline, the clock, and what the actors have in mind;
* `World.act` — what an actor can do now, if anything;
* `World.wait` — an actor lines up for what it waits for;
* `World.play` — the rehearsal up to the moment when nobody does anything.
-/

namespace PeerWatch.Rehearsal

open Calendar

/-- Who acts in a rehearsal. -/
inductive Actor where
  | caller
  | collector
  | supervisor
  | feeder
  | loader
  | targetSink
  | source
  | recorder
  | worker (i : Nat)
  | pool
  | outcomeSink
deriving DecidableEq, Repr

/-- A probe that a worker has begun. -/
structure ProbeUnderWay where
  begun : Nat
  attempt : Attempt
  /-- The moments at which the worker will have waited for a call. -/
  waits : List Nat

instance : Inhabited ProbeUnderWay := ⟨⟨0, ⟨[], .succeeded, .zero⟩, []⟩⟩

/-- What takes messages in place of a part of the pipeline. -/
structure Sink where
  /-- How long it rests after each message. -/
  rest : Nat
  /-- After how many messages it closes the channel. -/
  limit : Option Nat
  taken : Nat
  restsUntil : Nat
  isDone : Bool

/-- A sink before its first message. -/
def Sink.fresh (rest : Nat) (limit : Option Nat) : Sink := ⟨rest, limit, 0, 0, false⟩

/-- What a source does at a moment. -/
structure SourceEvent where
  moment : Nat
  pause : Bool
  resume : Bool
  /-- The row of the next batch that is to fail. -/
  faultyRow : Option Nat
  send : List Outcome

/-- What is chosen for a rehearsal. -/
structure Staging where
  /-- Who acts, in the order in which they begin. -/
  roster : List Actor
  idleBackoff : Nat
  timeout : Nat
  owner : OwnerId
  collectFrom : Nat
  stopAt : Option Nat

/-- The world of a rehearsal. -/
structure World where
  staging : Staging
  clock : Clock Actor
  sys : System
  store : ScriptedStore
  cast : Cast
  calls : CallCounts
  claimUntil : Option Nat
  restUntil : Nat
  probes : List ProbeUnderWay
  /-- Whose turn it is to wait for a target. -/
  intake : Option Nat
  /-- Who waits for that turn. -/
  intakeLine : List Nat
  outcomeLine : List Actor
  reportLine : List Actor
  tickDue : Nat
  batchBegun : Bool
  toFeed : List Target
  events : List SourceEvent
  toSend : List Outcome
  targetSink : Sink
  outcomeSink : Sink
  /-- What was seen when the pipeline was asked to stop. -/
  beforeStop : Option (RunState × Option PipelineError)
  /-- Targets taken by the sink and when, last one first. -/
  targetsTaken : List (Nat × Target)
  outcomesTaken : List (Nat × Outcome)
  reportsTaken : List (Nat × Report)
  stageEnds : List (Stage × Nat)

/-- What an actor does, as the world after it. -/
abbrev Deed := Unit → World

namespace World

def now (w : World) : Nat := w.clock.now

/-- The world after a move of the pipeline. -/
def move (w : World) (m : Move) : World :=
  match w.sys.step m with
  | some sys => { w with sys := sys }
  | none => w

/-- The world in which an actor acts again at a moment to come. -/
def alarm (w : World) (a : Actor) (due : Nat) : World :=
  if due ≤ w.now then w else { w with clock := w.clock.setAlarm a due }

/-- The world in which an actor has no alarm. -/
def calm (w : World) (a : Actor) : World := { w with clock := w.clock.clearAlarm a }

/-- Notes that a stage has ended now. -/
def noteEnd (w : World) (stage : Stage) : World :=
  { w with stageEnds := w.stageEnds ++ [(stage, w.now)] }

/-- Whether an actor may go that needs room for one message, given the line of
those who wait: those before it need room too. -/
def mayGo (line : List Actor) (room : Nat) (a : Actor) : Bool :=
  line.takeWhile (· ≠ a) |>.length |> (· < room)

/-! ## Reports -/

/-- Whether an offer to report is accepted: those who wait go first. -/
def acceptsOffer (w : World) : Bool := w.reportLine.length < w.sys.reports.room

/-- The last report of an actor, by the move for it. -/
def lastReport (w : World) (a : Actor) (pending : Report) (m : Bool → Move) : Option Deed :=
  if pending.isNothing || !w.sys.reports.isOpen then some fun _ => w.move (m false)
  else if mayGo w.reportLine w.sys.reports.room a then
    some fun _ => { w with reportLine := w.reportLine.erase a }.move (m true)
  else none

/-! ## The loader -/

/-- The loader looks for the signal and does what it does next. -/
def loaderMove (w : World) (e : LoaderEvent) : World := (w.move (.loader .looked)).move (.loader e)

/-- The claim under way ends. -/
def endClaim (w : World) : World :=
  let w := { w with claimUntil := none }
  if w.store.claimTears then
    (w.loaderMove .tornDown).noteEnd .loader
  else
    let (store, result) := w.store.endClaim
    let w := { w with store := store }
    match result with
    | .error e => w.loaderMove (.claimFailed e)
    | .ok [] =>
      let due := w.now + w.staging.idleBackoff
      ({ w with restUntil := due }.loaderMove (.claimed [])).alarm .loader due
    | .ok batch => w.loaderMove (.claimed batch)

/-- A claim begins, and ends at once if the store takes no time for it. -/
def beginClaim (w : World) : World :=
  let w := { w with store := w.store.beginClaim w.now w.sys.loader.batchSize }
  if w.store.claimSpan = 0 then w.endClaim
  else
    let due := w.now + w.store.claimSpan
    { w with claimUntil := some due }.alarm .loader due

/-- What the loader can do.  It hears the signal before anything else. -/
def loaderAct (w : World) : Option Deed :=
  let isSignalled := w.sys.shutdown.waitsFor 0
  let hear : Deed := fun _ => (w.move (.loader .signalled)).calm .loader
  match w.sys.loader.phase with
  | .claiming =>
    if isSignalled then some hear
    else
      match w.claimUntil with
      | none => some fun _ => w.beginClaim
      | some due => if due ≤ w.now then some fun _ => w.endClaim else none
  | .offering _ => some fun _ => w.move (.loader (.offered w.acceptsOffer))
  | .handing _ =>
    if isSignalled then some hear
    else if !w.sys.targets.isOpen then some fun _ => w.loaderMove .turnedAway
    else if 0 < w.sys.targets.room then some fun _ => w.loaderMove .handed
    else none
  | .resting =>
    if isSignalled then some hear
    else if w.restUntil ≤ w.now then some fun _ => w.loaderMove .rested
    else none
  | .reporting =>
    (w.lastReport .loader w.sys.loader.pending fun accepted => .loader (.reported accepted)).map
      fun deed _ => (deed ()).noteEnd .loader
  | .ended | .tornDown => none

/-- What the feeder can do in place of the loader: it sends its targets and leaves. -/
def feederAct (w : World) : Option Deed :=
  if w.sys.loader.isGone then none
  else
    let leave : Deed := fun _ =>
      { w with sys := { w.sys with loader := w.sys.loader.enter .ended } }
    match w.toFeed with
    | [] => some leave
    | t :: rest =>
      if !w.sys.targets.isOpen then some leave
      else
        (w.sys.targets.push? t).map fun targets _ =>
          { w with toFeed := rest, sys := { w.sys with targets := targets } }

/-! ## The workers -/

/-- Numbers without those that repeat the one before. -/
def withoutRepeats : List Nat → List Nat
  | [] => []
  | x :: rest =>
    match withoutRepeats rest with
    | [] => [x]
    | y :: others => if x = y then y :: others else x :: y :: others

/-- The moments after `begun` at which a worker will have waited for the calls
of an attempt. -/
def waitsOf (begun : Nat) (a : Attempt) : List Nat :=
  (withoutRepeats (a.callEnds.map (begun + ·))).filter (begun < ·)

/-- The moment of the calendar at which the clock stands. -/
def moment (now : Nat) : Instant := (Instant.ofMillis? now).getD default

/-- The outcome of an attempt at a target. -/
def outcomeOf (t : Target) (p : ProbeUnderWay) : Outcome where
  target := t.id
  capturedAt := moment p.begun
  latency := UInt32.ofNat (min p.attempt.elapsed 4294967295)
  failure := p.attempt.result.failure?

/-- The worker whose turn it is takes the first target and begins to probe
it. -/
def takeTarget (w : World) (i : Nat) : World :=
  match w.sys.targets.queue with
  | [] => w
  | t :: _ =>
    let (peer, cast) := if t.mode = .off then (Peer.prompt, w.cast) else w.cast.enter t
    let a := attempt t.mode w.staging.timeout peer
    let waits := waitsOf w.now a
    let w := { w with
      cast := cast
      calls := w.calls.add a.calls
      intake := none
      probes := w.probes.set i ⟨w.now, a, waits⟩ }.move (.worker i (.took t))
    match waits with
    | [] => w
    | due :: _ => w.alarm (.worker i) due

/-- The probe of a worker is over. -/
def endProbe (w : World) (i : Nat) (t : Target) : World :=
  let p := w.probes[i]?.getD default
  match p.attempt.result with
  | .aborted => w.move (.worker i .tornDown)
  | _ => w.move (.worker i (.probed (outcomeOf t p)))

/-- What a worker can do.  Only one of them waits for a target; the others wait for that turn. -/
def workerAct (w : World) (i : Nat) : Option Deed :=
  let me := w.sys.workers[i]?.getD default
  match me.phase with
  | .waiting =>
    if w.intake = some i then
      if !w.sys.targets.queue.isEmpty then some fun _ => w.takeTarget i
      else if w.sys.targetsFinished then
        some fun _ => { w with intake := none }.move (.worker i .finished)
      else none
    else if w.intake.isNone && (w.intakeLine.head?.all (· = i)) then
      some fun _ => { w with intake := some i, intakeLine := w.intakeLine.tail }
    else none
  | .probing t =>
    let p := w.probes[i]?.getD default
    match p.waits with
    | [] => some fun _ => w.endProbe i t
    | due :: rest =>
      if due ≤ w.now then
        some fun _ =>
          let w := { w with probes := w.probes.set i { p with waits := rest } }
          match rest with
          | [] => w
          | due :: _ => w.alarm (.worker i) due
      else none
  | .emitting _ =>
    if !w.sys.outcomes.isOpen then some fun _ => w.move (.worker i .turnedAway)
    else if mayGo w.outcomeLine w.sys.outcomes.room (.worker i) then
      some fun _ =>
        { w with outcomeLine := w.outcomeLine.erase (.worker i) }.move (.worker i .emitted)
    else none
  | .offering => some fun _ => w.move (.worker i (.offered w.acceptsOffer))
  | .reporting =>
    w.lastReport (.worker i) me.pending fun accepted => .worker i (.reported accepted)
  | .ended | .tornDown => none

/-- What the pool of workers can do. -/
def poolAct (w : World) : Option Deed :=
  let p := w.sys.pool
  match p.next? w.sys.workers with
  | some i => some fun _ => w.move (.pool (.noted i))
  | none =>
    if p.noted.all id && !p.hasEnded then
      some fun _ => (w.move (.pool .ended)).noteEnd .probe
    else none

/-! ## The recorder -/

/-- The world in which the recorder's ticker ticks at a moment. -/
def setTick (w : World) (due : Nat) : World :=
  { w with tickDue := due }.alarm .recorder due

/-- How late, in milliseconds, a tick may be noticed without moving the next
one. -/
def tickTolerance : Nat := 5

/-- The recorder's ticker ticks; the next tick hangs on this one only if it came late. -/
def tick (w : World) : World :=
  let r := w.sys.recorder
  let since := if w.tickDue + tickTolerance < w.now then w.now else w.tickDue
  let event := if r.buffer.isEmpty then .idled w.acceptsOffer else .ticked
  (w.setTick (since + r.flushInterval)).move (.recorder event)

/-- The recorder begins, if it can. -/
def beginRecorder (w : World) : World :=
  let r := w.sys.recorder
  if r.canBegin then (w.setTick (w.now + r.flushInterval)).move (.recorder .begun)
  else (w.move (.recorder .tornDown)).noteEnd .recorder

/-- The batch under way ends, and the recorder goes on as the store answered. -/
def endBatch (w : World) : World :=
  let (store, result) := w.store.endBatch w.now
  let w := { w with store := store, batchBegun := false }
  match result with
  | .ok _ => w.move (.recorder .committed)
  | .error e => w.move (.recorder (.commitFailed e))

/-- What the recorder can do.  Outcomes go before ticks, and only a full batch moves the ticker. -/
def recorderAct (w : World) : Option Deed :=
  let r := w.sys.recorder
  match r.phase with
  | .beginning => some fun _ => w.beginRecorder
  | .listening =>
    match w.sys.outcomes.queue with
    | o :: _ => some fun _ => w.move (.recorder (.received o))
    | [] =>
      if w.sys.outcomesFinished then some fun _ => w.move (.recorder .finished)
      else if w.tickDue ≤ w.now then some fun _ => w.tick
      else none
  | .flushing _ =>
    if !w.batchBegun then
      some fun _ =>
        { w with
          batchBegun := true
          store := w.store.beginBatch w.now (recordsOf w.staging.owner r.buffer) }
    else if w.store.backend.isPaused then none
    else some fun _ => w.endBatch
  | .offering cause =>
    some fun _ =>
      let w := w.move (.recorder (.offered w.acceptsOffer))
      if cause = .full then w.setTick (w.now + r.flushInterval) else w
  | .reporting =>
    (w.lastReport .recorder r.pending fun accepted => .recorder (.reported accepted)).map
      fun deed _ => ((deed ()).noteEnd .recorder).calm .recorder
  | .ended | .tornDown => none

/-! ## Collector, supervisor and caller -/

def collectorAct (w : World) : Option Deed :=
  let c := w.sys.collector
  match c.phase with
  | .beginning =>
    some fun _ => w.move (.collector (if 0 < c.interval then .begun else .tornDown))
  | .collecting =>
    if w.now < w.staging.collectFrom then none
    else
      match w.sys.reports.queue with
      | r :: _ =>
        some fun _ =>
          { w with reportsTaken := (w.now, r) :: w.reportsTaken }.move (.collector (.took r))
      | [] =>
        if w.sys.reportsFinished then some fun _ => w.move (.collector .finished) else none
  | .ended | .tornDown => none

def supervisorAct (w : World) : Option Deed :=
  let v := w.sys.supervisor
  let deed (e : SupervisorEvent) : Option Deed := some fun _ => w.move (.supervisor e)
  match v.phase with
  | .watching =>
    if w.sys.nextEnded?.isSome then deed .noted
    else if v.noted = Supervisor.stageCount ∧ w.sys.collector.isGone then deed .concluded
    else none
  | .publishing => deed .published
  | .alarming => deed .alarmed
  | .closing => deed .closed
  | .closed => none

/-- What the caller can do: ask the pipeline to stop, once. -/
def callerAct (w : World) : Option Deed :=
  match w.staging.stopAt, w.beforeStop with
  | some due, none =>
    if due ≤ w.now then
      let v := w.sys.supervisor
      some fun _ =>
        ({ w with beforeStop := some (v.state, v.errors.error?) }.move .ask).move .signal
    else none
  | _, _ => none

/-! ## Stand-ins -/

/-- What a sink can do. -/
inductive SinkDeed where
  | take
  | close
  | leave

/-- What a sink can do now, given whether a message is there and whether there
will be no more. -/
def sinkDeed? (now : Nat) (k : Sink) (isThere isFinished : Bool) : Option SinkDeed :=
  if k.isDone || now < k.restsUntil then none
  else if k.limit.any (· ≤ k.taken) then some .close
  else if isThere then some .take
  else if isFinished then some .leave
  else none

/-- A sink after a message. -/
def afterMessage (k : Sink) (now : Nat) : Sink :=
  { k with taken := k.taken + 1, restsUntil := now + k.rest }

/-- What the sink of targets can do. -/
def targetSinkAct (w : World) : Option Deed :=
  let k := w.targetSink
  (sinkDeed? w.now k (!w.sys.targets.queue.isEmpty) w.sys.targetsFinished).map fun deed _ =>
    match deed, w.sys.targets.pop? with
    | .take, some (t, targets) =>
      { w with
        sys := { w.sys with targets := targets }
        targetSink := afterMessage k w.now
        targetsTaken := (w.now, t) :: w.targetsTaken }.alarm .targetSink (w.now + k.rest)
    | .close, _ =>
      { w with sys := { w.sys with targets := w.sys.targets.close },
               targetSink := { k with isDone := true } }
    | _, _ => { w with targetSink := { k with isDone := true } }

/-- What the sink of outcomes can do. -/
def outcomeSinkAct (w : World) : Option Deed :=
  let k := w.outcomeSink
  (sinkDeed? w.now k (!w.sys.outcomes.queue.isEmpty) w.sys.outcomesFinished).map fun deed _ =>
    match deed, w.sys.outcomes.pop? with
    | .take, some (o, outcomes) =>
      { w with
        sys := { w.sys with outcomes := outcomes }
        outcomeSink := afterMessage k w.now
        outcomesTaken := (w.now, o) :: w.outcomesTaken }.alarm .outcomeSink (w.now + k.rest)
    | .close, _ =>
      { w with sys := { w.sys with outcomes := w.sys.outcomes.close },
               outcomeSink := { k with isDone := true } }
    | _, _ => { w with outcomeSink := { k with isDone := true } }

/-- The world after the switches of an event were set. -/
def applyEvent (w : World) (e : SourceEvent) : World :=
  { w with
    toSend := e.send
    store := { w.store with backend := w.store.backend.mapLedger fun l =>
      { l with
        paused := if e.resume then false else if e.pause then true else l.paused
        faultyRow := e.faultyRow.or l.faultyRow } } }

/-- What the source can do in place of the workers: it sends outcomes, at the moments of its
events, and leaves. -/
def sourceAct (w : World) : Option Deed :=
  match w.toSend, w.events with
  | o :: rest, _ =>
    if !w.sys.outcomes.isOpen then some fun _ => { w with toSend := [] }
    else
      (w.sys.outcomes.push? o).map fun outcomes _ =>
        { w with toSend := rest, sys := { w.sys with outcomes := outcomes } }
  | [], e :: rest =>
    if e.moment ≤ w.now then
      some fun _ =>
        let w := { w with events := rest }.applyEvent e
        match rest with
        | [] => w
        | next :: _ => w.alarm .source next.moment
    else none
  | [], [] =>
    if w.sys.workersGone then none
    else
      some fun _ =>
        { w with sys := { w.sys with workers := w.sys.workers.map ({ · with phase := .ended }) } }

/-! ## The play -/

/-- What an actor can do now, if there is anything. -/
def act (w : World) : Actor → Option Deed
  | .caller => w.callerAct
  | .collector => w.collectorAct
  | .supervisor => w.supervisorAct
  | .feeder => w.feederAct
  | .loader => w.loaderAct
  | .targetSink => w.targetSinkAct
  | .source => w.sourceAct
  | .recorder => w.recorderAct
  | .worker i => w.workerAct i
  | .pool => w.poolAct
  | .outcomeSink => w.outcomeSinkAct

/-- An actor at the end of a line, unless it stands in it already. -/
def lineUp {α : Type} [DecidableEq α] (line : List α) (a : α) : List α :=
  if line.contains a then line else line ++ [a]

/-- An actor that can do nothing lines up for what it waits for. -/
def wait (w : World) : Actor → World
  | .worker i =>
    match (w.sys.workers[i]?.getD default).phase with
    | .waiting =>
      if w.intake = some i then w else { w with intakeLine := lineUp w.intakeLine i }
    | .emitting _ => { w with outcomeLine := lineUp w.outcomeLine (.worker i) }
    | .reporting => { w with reportLine := lineUp w.reportLine (.worker i) }
    | _ => w
  | .loader =>
    match w.sys.loader.phase with
    | .reporting => { w with reportLine := lineUp w.reportLine .loader }
    | _ => w
  | .recorder =>
    match w.sys.recorder.phase with
    | .reporting => { w with reportLine := lineUp w.reportLine .recorder }
    | _ => w
  | _ => w

/-- Those who have become able to act join the queue. -/
def awaken (w : World) : World :=
  let woken := w.staging.roster.filter fun a => (w.act a).isSome && !w.clock.ready.contains a
  if woken.isEmpty then w else { w with clock := w.clock.enqueue woken }

/-- The rehearsal, for at most so many steps. -/
def play : Nat → World → World
  | 0, w => w
  | fuel + 1, w =>
    match w.clock.ready with
    | a :: _ =>
      match w.act a with
      | some deed => play fuel (deed ()).awaken
      | none => play fuel ({ w with clock := w.clock.dismiss }.wait a)
    | [] =>
      match w.clock.jump? with
      | some clock => play fuel { w with clock := clock }
      | none => w

end World

end PeerWatch.Rehearsal
