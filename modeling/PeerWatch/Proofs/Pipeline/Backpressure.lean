import PeerWatch.Proofs.Pipeline.Crews
import PeerWatch.Proofs.Pipeline.Flows

/-!
# How much is under way

From its claim to its commit a target is with the loader, in the first channel,
with a worker, in the second channel or in the recorder's buffer.  Each of these
places holds so much and no more: a batch, what the channels were made for, one
target for each worker, a chunk.  So when the store takes its time, all places
fill up, the workers come to a halt, and the loader does; nothing that was claimed
is dropped for it.

The bounds do not depend on how a pipeline comes to its end.  A channel that is
closed loses what it holds, and takes nothing more; a worker that is torn down or
turned away loses one target, and takes none after it.

* `Channel.Carries` — what was put into a channel, and what was taken out;
* `System.Trails`, `System.trails_of_run` — how far behind the stages are;
* `System.IsUndisturbed` — before there was a signal or a failure;
* `System.backlog_bounded` — how much is under way, and where it is.
-/

namespace PeerWatch

namespace Channel

variable {α : Type} {c : Channel α} {capacity put taken : Nat}

/-- **What a channel carries.**  What was put in and not taken out is in the
channel, or was lost when it was closed. -/
structure Carries (c : Channel α) (capacity put taken : Nat) : Prop where
  fits : c.Fits capacity
  put : put ≤ taken + if c.isOpen then c.queue.length else capacity

theorem carries_ofCapacity (capacity : Nat) :
    (ofCapacity capacity : Channel α).Carries capacity 0 0 :=
  ⟨fits_ofCapacity capacity, Nat.zero_le _⟩

theorem Carries.push (h : c.Carries capacity put taken) (hroom : 0 < c.room) (message : α) :
    Carries { c with queue := c.queue ++ [message] } capacity (put + 1) taken := by
  have hopen := isOpen_of_room hroom
  have hput := h.put
  rw [if_pos hopen] at hput
  refine ⟨h.fits.push hroom message, ?_⟩
  rw [if_pos hopen, List.length_append, List.length_singleton]
  omega

theorem Carries.pop (h : c.Carries capacity put taken) {message : α} {rest : List α}
    (hqueue : c.queue = message :: rest) :
    Carries { c with queue := rest } capacity put (taken + 1) := by
  refine ⟨h.fits.pop hqueue, ?_⟩
  have hput := h.put
  rw [hqueue, List.length_cons] at hput
  show put ≤ taken + 1 + if c.isOpen then rest.length else capacity
  by_cases hopen : c.isOpen
  · rw [if_pos hopen] at hput ⊢
    omega
  · rw [if_neg hopen] at hput ⊢
    omega

/-- No more was put in than was taken out and the channel can hold. -/
theorem Carries.put_le (h : c.Carries capacity put taken) : put ≤ taken + capacity := by
  have hfits := h.fits.fits
  have hput := h.put
  split at hput <;> omega

/-- A channel that is closed loses what it carries, which is no more than its capacity. -/
theorem Carries.close (h : c.Carries capacity put taken) : c.close.Carries capacity put taken :=
  ⟨h.fits.close, h.put_le⟩

end Channel

namespace Worker

variable {w w' : Worker} {e : WorkerEvent}

/-- Whether a worker has a target it took and did not hand on an outcome of, or
takes no more targets. -/
def isLaden (w : Worker) : Bool :=
  match w.phase with
  | .waiting | .offering => false
  | _ => true

/-- When a worker changes, the number of those laden changes by that one alone. -/
theorem countP_isLaden_set {workers : List Worker} {i : Nat} (hw : workers[i]? = some w)
    (w' : Worker) :
    (workers.set i w').countP (·.isLaden) + (if w.isLaden then 1 else 0) =
      workers.countP (·.isLaden) + (if w'.isLaden then 1 else 0) := by
  obtain ⟨hlt, rfl⟩ := List.getElem?_eq_some_iff.1 hw
  rw [List.countP_set hlt]
  by_cases hladen : workers[i].isLaden
  · have hpos : 0 < workers.countP (·.isLaden) :=
      List.countP_pos_iff.2 ⟨_, List.getElem_mem hlt, hladen⟩
    rw [if_pos hladen]
    omega
  · rw [if_neg hladen]
    omega

/-- **One event** at a worker: it takes a target and is laden, or hands on an
outcome and is not. -/
theorem Moves.taken_le (h : w.Moves e w') {workers : List Worker} {i : Nat}
    (hw : workers[i]? = some w) {log : Chronicle}
    (hle : log.taken.length ≤ log.emitted.length + workers.countP (·.isLaden)) :
    (log.noteWorker i w e).taken.length ≤
      (log.noteWorker i w e).emitted.length + (workers.set i w').countP (·.isLaden) := by
  have hcount := countP_isLaden_set hw w'
  -- a worker that is laden now may have been before
  have hsame : w'.isLaden →
      log.taken.length ≤ log.emitted.length + (workers.set i w').countP (·.isLaden) := by
    intro hladen
    rw [if_pos hladen] at hcount
    split at hcount <;> omega
  cases h with
  | took hphase t =>
      have hbefore : ¬ w.isLaden := by simp [isLaden, hphase]
      have hafter : isLaden { w with phase := .probing t } := rfl
      rw [if_neg hbefore, if_pos hafter] at hcount
      rw [Chronicle.noteWorker, List.length_append, List.length_singleton]
      show log.taken.length + 1 ≤ log.emitted.length + _
      omega
  | emitted hphase =>
      have hbefore : w.isLaden := by simp [isLaden, hphase]
      have hemitted : (log.noteWorker i w .emitted).emitted.length = log.emitted.length + 1 := by
        simp [Chronicle.noteWorker, toEmit, hphase]
      rw [if_pos hbefore] at hcount
      rw [hemitted]
      show log.taken.length ≤ _
      omega
  | offered hphase accepted =>
      have hbefore : ¬ w.isLaden := by simp [isLaden, hphase]
      rw [if_neg hbefore] at hcount
      show log.taken.length ≤ log.emitted.length + _
      omega
  | finished hphase | probed hphase ho | tornDown hphase | turnedAway hphase
  | reported hphase accepted =>
      exact hsame rfl

end Worker

namespace Recorder

variable {r : Recorder} {chunk : Nat} {log : RecorderLog}

/-- The buffer of a recorder is at most a chunk, also when it has failed. -/
theorem Partitions.buffer_le (h : r.Partitions chunk log) : r.buffer.length ≤ chunk := by
  have hbuffer := h.buffer
  have hsize := h.chunkSize
  unfold BufferFits at hbuffer
  cases hfailure : r.failure with
  | none =>
      rw [hfailure, hsize] at hbuffer
      split at hbuffer
      · simp [hbuffer]
      · simp [hbuffer]
      · simp [hbuffer]
      · exact Nat.le_of_lt hbuffer
      · exact hbuffer.2
      · simp [hbuffer rfl]
      · simp [hbuffer rfl]
  | some e =>
      obtain ⟨_, done, hattempts, _⟩ := h.failure.failed e hfailure
      have hmem : r.buffer ∈ log.batches := by
        rw [RecorderLog.batches, hattempts, List.map_append]
        exact List.mem_append_right _ List.mem_cons_self
      exact (h.sizes _ hmem).2

/-- Nothing is committed but by a commit. -/
theorem committed_note (log : RecorderLog) (r : Recorder) {e : RecorderEvent}
    (he : e ≠ .committed) : (log.note r e).committed = log.committed := by
  cases e with
  | committed => exact absurd rfl he
  | commitFailed e => exact committed_commitFailed log r e
  | _ => rfl

end Recorder

namespace System

variable {s s' : System} {m : Move} {log : Chronicle} {settings : Settings} {moves : List Move}

/-- **How far behind the stages are:** the workers behind the loader, what they
hand on behind what they take, and the recorder behind the workers. -/
structure Trails (capacity : Nat) (s : System) (log : Chronicle) : Prop where
  handed : s.targets.Carries capacity log.loader.handed.length log.taken.length
  taken : log.taken.length ≤ log.emitted.length + s.workers.countP (·.isLaden)
  emitted : s.outcomes.Carries capacity log.emitted.length log.recorder.received.length

section Steps

variable {capacity : Nat}

theorem trails_start (settings : Settings) :
    (start settings).Trails (channelCapacity settings.channels.capacity) .empty where
  handed := Channel.carries_ofCapacity _
  taken := Nat.zero_le _
  emitted := Channel.carries_ofCapacity _

/-- After a move the channel of targets carries what was handed on and not taken. -/
theorem Trails.handed_step (h : s.Trails capacity log) (hmoves : s.Moves m s') :
    s'.targets.Carries capacity (log.note s m).loader.handed.length
      (log.note s m).taken.length := by
  have hhanded := h.handed
  cases hmoves with
  | @handed _ t hl ht hroom =>
      have hlog : (log.note s (.loader .handed)).loader.handed = log.loader.handed ++ [t] := by
        show log.loader.handed ++ s.loader.next?.toList = _
        rw [ht]
        rfl
      rw [hlog, List.length_append]
      exact hhanded.push hroom t
  | @took i w w' t rest hw hworker hqueue =>
      rw [Chronicle.note_worker hw, Chronicle.noteWorker, List.length_append]
      exact hhanded.pop hqueue
  | poolEnded hpool => exact hhanded.close
  | workerFinished hw | probed hw | workerTorn hw | emitted hw | workerTurnedAway hw
  | workerOffered hw | workerReported hw =>
      rw [Chronicle.note_worker hw]
      exact hhanded
  | _ => exact hhanded

/-- After a move a target that was taken is emitted, or some worker is laden with it. -/
theorem Trails.taken_step (h : s.Trails capacity log) (hmoves : s.Moves m s') :
    (log.note s m).taken.length ≤
      (log.note s m).emitted.length + s'.workers.countP (·.isLaden) := by
  cases hmoves with
  | took hw hworker | workerFinished hw hworker | probed hw hworker | workerTorn hw hworker
  | emitted hw hworker | workerTurnedAway hw hworker | workerOffered hw hworker
  | workerReported hw hworker =>
      rw [Chronicle.note_worker hw]
      exact hworker.taken_le hw h.taken
  | _ => exact h.taken

/-- After a move the channel of outcomes carries what was emitted and not received. -/
theorem Trails.emitted_step (h : s.Trails capacity log) (hmoves : s.Moves m s') :
    s'.outcomes.Carries capacity (log.note s m).emitted.length
      (log.note s m).recorder.received.length := by
  have hemitted := h.emitted
  cases hmoves with
  | @emitted i w w' o hw hworker hphase hroom =>
      rw [Chronicle.note_worker hw, Chronicle.noteWorker, Worker.toEmit, hphase,
        List.length_append]
      exact hemitted.push hroom o
  | @received _ o rest hr hqueue =>
      show Channel.Carries _ capacity log.emitted.length
        (log.recorder.note s.recorder (.received o)).received.length
      rw [Recorder.received_received, List.length_append]
      exact hemitted.pop hqueue
  | ticked hr =>
      show Channel.Carries _ capacity log.emitted.length
        (log.recorder.note s.recorder .ticked).received.length
      rw [Recorder.received_ticked]
      exact hemitted
  | @idled _ accepted _ hr hreports =>
      show Channel.Carries _ capacity log.emitted.length
        (log.recorder.note s.recorder (.idled accepted)).received.length
      rw [Recorder.received_idled]
      exact hemitted
  | recorderReported hr | recorderTorn hr => exact hemitted.close
  | took hw | workerFinished hw | probed hw | workerTorn hw | workerTurnedAway hw
  | workerOffered hw | workerReported hw =>
      rw [Chronicle.note_worker hw]
      exact hemitted
  | _ => exact hemitted

/-- **One move** leaves no stage further behind than there is room. -/
theorem Trails.step (h : s.Trails capacity log) (hmoves : s.Moves m s') :
    s'.Trails capacity (log.note s m) :=
  ⟨h.handed_step hmoves, h.taken_step hmoves, h.emitted_step hmoves⟩

end Steps

section Runs

/-- **Wherever a run leads,** no stage is further behind than there is room. -/
theorem trails_of_run (h : Run chronicled (start settings, .empty) moves (s, log)) :
    s.Trails (channelCapacity settings.channels.capacity) log := by
  refine h.invariant (P := fun now =>
    now.1.Trails (channelCapacity settings.channels.capacity) now.2) (trails_start settings) ?_
  intro now m next hnow hstep
  obtain ⟨hstep, hlog⟩ := noting_eq_some.1 hstep
  rw [hlog]
  exact hnow.step (moves_of_step hstep)

/-- Workers neither come nor go. -/
theorem length_workers_of_run (h : Run step (start settings) moves s) :
    s.workers.length = max settings.probe.concurrency 1 := by
  refine h.invariant (P := fun s => s.workers.length = max settings.probe.concurrency 1)
    List.length_replicate ?_
  intro s m s' hnow hstep
  rcases (moves_of_step hstep).workers with hsame | ⟨i, w, w', e, _, _, _, hworkers⟩
  · rw [hsame]
    exact hnow
  · rw [hworkers, List.length_set]
    exact hnow

/-- As long as the store does not commit, no more is committed. -/
theorem committed_of_stalled {now : System × Chronicle}
    (h : Run chronicled (s, log) moves now) (hstalled : .recorder .committed ∉ moves) :
    now.2.recorder.committed = log.recorder.committed := by
  induction h with
  | nil => rfl
  | @snoc moves now next m _ hstep ih =>
      rw [List.mem_append, not_or, List.mem_singleton] at hstalled
      obtain ⟨hstep, hlog⟩ := noting_eq_some.1 hstep
      rw [hlog, ← ih hstalled.1]
      rcases (moves_of_step hstep).recorder now.2 with ⟨_, hnote⟩ | ⟨e, rfl, _, hnote⟩
      · rw [hnote]
      · rw [hnote]
        refine Recorder.committed_note _ _ ?_
        rintro rfl
        exact hstalled.2 rfl

end Runs

/-- Nobody has given the signal, and nothing has failed: no claim, no worker, no
batch. -/
structure IsUndisturbed (s : System) : Prop where
  signal : s.shutdown.triggered = false
  claims : s.loader.failure = none
  loader : s.loader.phase ≠ .tornDown
  unharmed : s.IsUnharmed

/-- **What keeps a loader from its work:** the signal, a failure, or that nobody
takes its targets, which does not happen before a failure. -/
structure Persists (s : System) : Prop where
  signal : s.shutdown.waitsFor 0 → s.shutdown.triggered
  atWork : s.IsUndisturbed → s.loader.isAtWork

section Work

/-- At the start nothing keeps the loader from its work. -/
theorem persists_start (settings : Settings) : (start settings).Persists where
  signal h := by cases h
  atWork _ := rfl

/-- A disturbance is not undone. -/
theorem Moves.undisturbed (h : s.Moves m s') (hnow : s'.IsUndisturbed) : s.IsUndisturbed where
  signal := by
    cases htriggered : s.shutdown.triggered with
    | false => rfl
    | true =>
        have hsignal := hnow.signal
        rw [h.triggered htriggered] at hsignal
        cases hsignal
  claims := by
    have hclaims := hnow.claims
    rcases h.loader .empty with ⟨hsame, _⟩ | ⟨e, _, hl, _⟩
    · rw [← hsame]
      exact hclaims
    · generalize s'.loader = l' at hl hclaims
      cases hl with
      | claimFailed => cases hclaims
      | @offered batch => cases batch <;> exact hclaims
      | @handed t rest => cases rest <;> exact hclaims
      | _ => exact hclaims
  loader htorn := by
    have hsame := h.loader_gone (by simp [Loader.isGone, htorn])
    exact hnow.loader (hsame ▸ htorn)
  unharmed := h.unharmed hnow.unharmed

/-- **One move** keeps the loader at its work, unless it disturbs. -/
theorem Persists.step (h : s.Persists) (ho : s.Orderly) (hmoves : s.Moves m s') :
    s'.Persists where
  signal := by
    intro hwaits
    cases hmoves with
    | signalled hl hsignal =>
        rw [Shutdown.triggered_receive]
        exact h.signal hsignal
    | alarmed | gaveSignal => exact s.shutdown.triggered_trigger
    | _ => exact h.signal hwaits
  atWork hnow := by
    have hbefore := hmoves.undisturbed hnow
    have hwork := h.atWork hbefore
    cases hmoves with
    | signalled hl hsignal =>
        have htriggered := h.signal hsignal
        rw [hbefore.signal] at htriggered
        cases htriggered
    | loaderTurnedAway hl hclosed =>
        -- nobody takes targets when the pool has ended, and it waits for the loader
        have hended := ho.targets.gone hclosed
        have hgone := fun w hw => (ho.pool.all_gone (ho.pool.ended hended) w hw).1
        have hfinished := ho.targetsFinished_of_gone hbefore.unharmed hgone
        have hloader := (Bool.and_eq_true_iff.1 hfinished).1
        rw [hl.not_gone] at hloader
        cases hloader
    | loaderReported hl =>
        cases hl with
        | reported hphase =>
            rw [Loader.isAtWork, hphase] at hwork
            cases hwork
    | claimFailed hl =>
        cases hl
        cases hnow.claims
    | loaderTorn hl =>
        cases hl
        exact absurd rfl hnow.loader
    | looked hl =>
        cases hl
        exact hwork
    | claimed hl => cases hl <;> rfl
    | rested hl =>
        cases hl
        rfl
    | loaderOffered hl =>
        cases hl with
        | @offered batch => cases batch <;> rfl
    | handed hl =>
        cases hl with
        | @handed t rest => cases rest <;> rfl
    | _ => exact hwork

/-- **Wherever a run leads,** the loader is at its work, if nothing disturbed it. -/
theorem persists_of_run (h : Run step (start settings) moves s) : s.Persists := by
  refine (h.invariant (P := fun s => s.Orderly ∧ s.Persists)
    ⟨orderly_start settings, persists_start settings⟩ ?_).2
  intro s m s' hnow hstep
  have hmoves := moves_of_step hstep
  exact ⟨hnow.1.step hmoves, hnow.2.step hnow.1 hmoves⟩

end Work

/-- The targets under way, each where it is: in a batch committed, in the recorder's
buffer, in the channel of outcomes, with a worker, in the channel of targets, or
with the loader. -/
def whereabouts (s : System) (log : Chronicle) : List TargetId :=
  log.recorder.committed.flatten.map (·.target) ++ s.recorder.buffer.map (·.target) ++
    s.outcomes.queue.map (·.target) ++ s.workers.flatMap (·.held) ++
    s.targets.queue.map (·.id) ++ s.loader.kept.map (·.id)

/-- The most targets there may be that are claimed and not recorded: a batch, two
channels, one for each worker, and a chunk. -/
def mostClaimed (settings : Settings) : Nat :=
  settings.loader.batchSize + max settings.channels.capacity 1 +
    max settings.probe.concurrency 1 + max settings.channels.capacity 1 +
    max settings.recorder.chunkSize 1

/-- The most probes there may be that are begun and not recorded: one for each
worker, a channel and a chunk. -/
def mostProbed (settings : Settings) : Nat :=
  max settings.probe.concurrency 1 + max settings.channels.capacity 1 +
    max settings.recorder.chunkSize 1

section Backlog

/-- Of what the workers of an unharmed pipeline took they handed on an outcome, but
for what they hold. -/
theorem Flows.taken_perm (h : s.Flows log) :
    (log.taken.map (·.2.id)).Perm
      (log.emitted.map (·.2.target) ++ s.workers.flatMap (·.held)) := by
  have hperm := Chronicle.perm_of_each s.workers (·.held)
    (log.taken.map fun d => (d.1, d.2.id)) (log.emitted.map fun d => (d.1, d.2.target)) ?_ ?_
  · rwa [List.map_map, List.map_map] at hperm
  · intro i w hw
    rw [Chronicle.doneBy_map, Chronicle.doneBy_map]
    exact (h.workers i w hw).taken_eq
  · intro i hnone
    have hempty := h.strangers i hnone
    rw [Chronicle.doneBy_map, Chronicle.doneBy_map]
    show (log.worker i).taken.map _ = (log.worker i).emitted.map _
    rw [hempty]
    rfl

/-- **Nothing claimed is dropped** before there is a signal or a failure. -/
theorem claimed_perm_whereabouts (hrun : Run chronicled (start settings, .empty) moves (s, log))
    (hundisturbed : s.IsUndisturbed) :
    (log.loader.claimed.map (·.id)).Perm (s.whereabouts log) := by
  have hflows := flows_of_run hrun hundisturbed.unharmed
  have hwork := (persists_of_run hrun.unnoted).atWork hundisturbed
  obtain ⟨hclaimed, _⟩ := (hands_of_run hrun).kept hwork
  have hemitted : log.emitted.map (·.2.target) = log.recorder.committed.flatten.map (·.target) ++
      s.recorder.buffer.map (·.target) ++ s.outcomes.queue.map (·.target) := by
    have houtcomes := congrArg (List.map (·.target)) hflows.outcomes
    rw [List.map_map, (partitions_of_run hrun).received, List.map_append, List.map_append]
      at houtcomes
    exact houtcomes
  have htaken := hflows.taken_perm
  rw [hemitted] at htaken
  rw [hclaimed, hflows.targets, List.map_append, List.map_append, List.map_map, whereabouts]
  exact (htaken.append_right _).append_right _

/-- The whole way from the commit to the claim. -/
theorem backlog_le (hrun : Run chronicled (start settings, .empty) moves (s, log)) :
    log.loader.claimed.length ≤ log.recorder.committed.flatten.length + mostClaimed settings ∧
      log.taken.length ≤ log.recorder.committed.flatten.length + mostProbed settings := by
  obtain ⟨left, hclaimed, hleft, _⟩ := (hands_of_run hrun).left
  have hpartitions := partitions_of_run hrun
  obtain ⟨hhanded, htaken, hemitted⟩ := trails_of_run hrun
  have hclaims : log.loader.claimed.length = log.loader.handed.length + left.length := by
    rw [hclaimed, List.length_append]
  have hladen : s.workers.countP (·.isLaden) ≤ max settings.probe.concurrency 1 := by
    rw [← length_workers_of_run hrun.unnoted]
    exact List.countP_le_length
  have hreceived : log.recorder.received.length =
      log.recorder.committed.flatten.length + s.recorder.buffer.length := by
    rw [hpartitions.received, List.length_append]
  have hbuffer := hpartitions.buffer_le
  have hhanded := hhanded.put_le
  have hemitted := hemitted.put_le
  unfold channelCapacity at hhanded hemitted
  unfold mostClaimed mostProbed
  omega

/-- **The backlog is bounded.**  Wherever a run leads, the targets claimed are at most
a batch, two channels, one for each worker and a chunk ahead of the outcomes
committed, and the probes begun at most one for each worker, a channel and a chunk.
From there on, as long as the store commits nothing, neither goes further than that.
And before there is a signal or a failure, each target claimed is committed or on
its way, once. -/
theorem backlog_bounded (hrun : Run chronicled (start settings, .empty) moves (s, log)) :
    (log.loader.claimed.length ≤ log.recorder.committed.flatten.length + mostClaimed settings ∧
      log.taken.length ≤ log.recorder.committed.flatten.length + mostProbed settings) ∧
    (∀ more s' log', Run chronicled (s, log) more (s', log') → .recorder .committed ∉ more →
      log'.loader.claimed.length ≤ log.recorder.committed.flatten.length + mostClaimed settings ∧
      log'.taken.length ≤ log.recorder.committed.flatten.length + mostProbed settings) ∧
    (s.IsUndisturbed → (log.loader.claimed.map (·.id)).Perm (s.whereabouts log)) := by
  refine ⟨backlog_le hrun, ?_, claimed_perm_whereabouts hrun⟩
  intro more s' log' hmore hstalled
  have hbacklog := backlog_le (hrun.append hmore)
  rw [committed_of_stalled hmore hstalled] at hbacklog
  exact hbacklog

/-- A store that stalls at its first batch: with one place everywhere, five targets
are claimed, the probes of three are begun, and none of them is dropped. -/
theorem backlog_bounded_store_stalls :
    ∃ (settings : Settings) (moves more : List Move) (s s' : System) (log log' : Chronicle),
      Run chronicled (start settings, .empty) moves (s, log) ∧
      Run chronicled (s, log) more (s', log') ∧ .recorder .committed ∉ more ∧
      log.recorder.committed = [] ∧ log'.loader.claimed.length = 5 ∧ log'.taken.length = 3 ∧
      log'.loader.claimed.length ≤ log.recorder.committed.flatten.length + mostClaimed settings ∧
      log'.taken.length ≤ log.recorder.committed.flatten.length + mostProbed settings ∧
      mostClaimed settings = 5 ∧ mostProbed settings = 3 ∧ s'.IsUndisturbed ∧
      (log'.loader.claimed.map (·.id)).Perm (s'.whereabouts log') := by
  let settings : Settings :=
    { loader := { batchSize := 1 }, channels := { capacity := 1 },
      probe := { concurrency := 1 }, recorder := { chunkSize := 1 } }
  let t : Target := default
  let o : Outcome := ⟨t.id, default, 7, none⟩
  let claim : List Move :=
    [.loader .looked, .loader (.claimed [t]), .loader (.offered false)]
  let probe : List Move := [.loader .looked, .loader .handed, .worker 0 (.took t),
    .worker 0 (.probed o)]
  let moves : List Move := [.collector .begun, .recorder .begun] ++ claim ++ probe ++
    [.worker 0 .emitted, .recorder (.received o)]
  let more : List Move := claim ++ probe ++ [.worker 0 .emitted] ++ claim ++ probe ++ claim ++
    [.loader .looked, .loader .handed] ++ claim
  have hchecked : (moves.foldlM chronicled (start settings, .empty)).any fun now =>
      now.2.recorder.committed = [] ∧ (more.foldlM chronicled now).any fun now =>
        now.2.loader.claimed.length = 5 ∧ now.2.taken.length = 3 ∧
        now.1.shutdown.triggered = false ∧ now.1.loader.failure = none ∧
        now.1.loader.phase ≠ .tornDown ∧ (∀ w ∈ now.1.workers, w.phase ≠ .tornDown) ∧
        now.1.recorder.phase ≠ .tornDown ∧ now.1.recorder.failure = none := by decide
  obtain ⟨⟨s, log⟩, hrun, hchecked⟩ := Run.exists_of_any hchecked
  obtain ⟨hcommitted, hchecked⟩ := of_decide_eq_true hchecked
  obtain ⟨⟨s', log'⟩, hmore, hchecked⟩ := Run.exists_of_any hchecked
  obtain ⟨hclaimed, htaken, hsignal, hclaims, hloader, hworkers, hrecorder, hfailure⟩ :=
    of_decide_eq_true hchecked
  have hstalled : .recorder .committed ∉ more := by decide
  have hundisturbed : s'.IsUndisturbed :=
    ⟨hsignal, hclaims, hloader, ⟨hworkers, hrecorder, hfailure⟩⟩
  obtain ⟨_, hstall, _⟩ := backlog_bounded hrun
  obtain ⟨_, _, hkept⟩ := backlog_bounded (hrun.append hmore)
  obtain ⟨hmost, hprobes⟩ := hstall more s' log' hmore hstalled
  exact ⟨settings, moves, more, s, s', log, log', hrun, hmore, hstalled, hcommitted, hclaimed,
    htaken, hmost, hprobes, rfl, rfl, hundisturbed, hkept hundisturbed⟩

end Backlog

end System

end PeerWatch
