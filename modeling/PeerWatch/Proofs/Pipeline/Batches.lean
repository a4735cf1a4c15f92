import PeerWatch.Proofs.Pipeline.Recorders

/-!
# What a recorder commits

The batches of a recorder are a partition of what it received, whatever it
hears, however the store answers and whichever of its reports are taken.  And
there is an end: it hears everything, or it stops at a batch that failed.

* `Recorder.exists_run` — whatever it hears and is answered, it ends;
* `Recorder.commits_partition` — what it has committed then;
* `Recorder.commits_nothing_if_torn_down` — a recorder that could not begin.
-/

namespace PeerWatch

namespace Recorder

variable {r r' : Recorder}

section Endings

variable {log : RecorderLog} {verdict : Nat → Option StoreError} {takes : Nat → Bool}

/-- What can happen to a recorder is a run. -/
theorem Moves.run {e : RecorderEvent} (h : r.Moves e r') (log : RecorderLog) :
    Run logged (r, log) [e] (r', log.note r e) :=
  .single (noting_eq_some.2 ⟨step_eq_some_iff.2 h, rfl⟩)

/-- One more batch, answered as the verdicts say. -/
theorem follows_attempt (h : log.Follows verdict takes) (batch : List Outcome) :
    ({ log with attempts := log.attempts ++ [(batch, verdict log.attempts.length)] } :
      RecorderLog).Follows verdict takes where
  attempts := by simp [List.range_succ, h.attempts]
  offers := h.offers

/-- One more offer, accepted as it is said. -/
theorem follows_offer (h : log.Follows verdict takes) (report : Report) :
    ({ log with offers := log.offers ++ [(report, takes log.offers.length)] } :
      RecorderLog).Follows verdict takes where
  attempts := h.attempts
  offers := by simp [List.range_succ, h.offers]

/-- A recorder that is to be told what it hears next, or that failed. -/
def IsSettled (r : Recorder) : Prop :=
  r.phase = .listening ∨ r.phase = .reporting ∧ r.failure ≠ none

/-- The buffer is committed, and the recorder listens again, or it failed. -/
theorem exists_flushed {cause : FlushCause} (h : r.phase = .flushing cause) (hcause : cause ≠ .close)
    (hfollows : log.Follows verdict takes) :
    ∃ es r' log', Run logged (r, log) es (r', log') ∧ log'.Follows verdict takes ∧
      log'.heard = log.heard ∧ r'.IsSettled := by
  have hattempt := follows_attempt hfollows r.buffer
  cases hverdict : verdict log.attempts.length with
  | none =>
      rw [hverdict] at hattempt
      have hcommitted := (Moves.committed h).run log
      have hphase : (if cause = .close then RecorderPhase.reporting else .offering cause) =
          .offering cause := if_neg hcause
      have hoffered := (Moves.offered (r := { r with
        outcomes := r.outcomes + r.buffer.length, batches := r.batches + 1, buffer := [],
        phase := if cause = .close then .reporting else .offering cause }) hphase
          (takes log.offers.length)).run (log.note r .committed)
      exact ⟨_, _, _, hcommitted.append hoffered, follows_offer hattempt _, rfl, .inl rfl⟩
  | some e =>
      rw [hverdict] at hattempt
      refine ⟨_, _, _, (Moves.commitFailed h e).run log, hattempt, rfl, .inr ⟨rfl, ?_⟩⟩
      exact Option.some_ne_none e

/-- Whatever a listening recorder hears, it listens again, or it fails. -/
theorem exists_heard (h : r.phase = .listening) (hfollows : log.Follows verdict takes)
    (input : RecorderInput) :
    ∃ es r' log', Run logged (r, log) es (r', log') ∧ log'.Follows verdict takes ∧
      log'.heard = log.heard ++ [input] ∧ r'.IsSettled := by
  cases input with
  | outcome o =>
      have hnoted : (log.note r (.received o)).Follows verdict takes :=
        ⟨hfollows.attempts, hfollows.offers⟩
      by_cases hfull : r.chunkSize ≤ r.buffer.length + 1
      · have hfilled := (Moves.filled h o hfull).run log
        obtain ⟨es, r', log', hrun, hfollows', hheard, hsettled⟩ :=
          exists_flushed (r := { r with buffer := r.buffer ++ [o], phase := .flushing .full }) rfl
            (by decide) hnoted
        exact ⟨_, r', log', hfilled.append hrun, hfollows', hheard, hsettled⟩
      · exact ⟨_, _, _, (Moves.gathered h o (Nat.lt_of_not_le hfull)).run log, hnoted, rfl, .inl h⟩
  | tick =>
      by_cases hbuffer : r.buffer = []
      · have hidled := (Moves.idled h hbuffer (takes log.offers.length)).run log
        have hphase := (afterOffer_eq r (takes log.offers.length)).2.1
        have hoffer := follows_offer hfollows r.pending
        exact ⟨_, _, _, hidled, ⟨hoffer.attempts, hoffer.offers⟩, rfl, .inl (hphase.trans h)⟩
      · have hnoted : (log.note r .ticked).Follows verdict takes :=
          ⟨hfollows.attempts, hfollows.offers⟩
        obtain ⟨es, r', log', hrun, hfollows', hheard, hsettled⟩ :=
          exists_flushed (r := { r with phase := .flushing .tick }) rfl (by decide) hnoted
        exact ⟨_, r', log', ((Moves.ticked h hbuffer).run log).append hrun, hfollows', hheard,
          hsettled⟩

/-- A listening recorder hears all there is, or it fails. -/
theorem exists_heard_all (h : r.phase = .listening) (hfollows : log.Follows verdict takes)
    (inputs : List RecorderInput) :
    ∃ es r' log', Run logged (r, log) es (r', log') ∧ log'.Follows verdict takes ∧
      log'.heard <+: log.heard ++ inputs ∧
      (r'.phase = .listening ∧ log'.heard = log.heard ++ inputs ∨
        r'.phase = .reporting ∧ r'.failure ≠ none) := by
  induction inputs generalizing r log with
  | nil =>
      rw [List.append_nil]
      exact ⟨[], r, log, .nil, hfollows, List.prefix_rfl, .inl ⟨h, rfl⟩⟩
  | cons input rest ih =>
      obtain ⟨es, r₁, log₁, hrun, hfollows₁, hheard, hlistening | hfailed⟩ :=
        exists_heard h hfollows input
      · obtain ⟨es', r₂, log₂, hrun', hfollows₂, hrest⟩ := ih hlistening hfollows₁
        rw [hheard, List.append_assoc, List.singleton_append] at hrest
        exact ⟨es ++ es', r₂, log₂, hrun.append hrun', hfollows₂, hrest⟩
      · refine ⟨es, r₁, log₁, hrun, hfollows₁, ?_, .inr hfailed⟩
        rw [hheard]
        exact ⟨rest, by rw [List.append_assoc, List.singleton_append]⟩

/-- When there is no more to hear, a listening recorder commits what it has and
comes to its last report. -/
theorem exists_drained (h : r.phase = .listening) (hfollows : log.Follows verdict takes) :
    ∃ es r' log', Run logged (r, log) es (r', log') ∧ log'.Follows verdict takes ∧
      log'.heard = log.heard ∧ r'.phase = .reporting := by
  by_cases hbuffer : r.buffer = []
  · have hnoted : (log.note r .finished).Follows verdict takes :=
      ⟨hfollows.attempts, hfollows.offers⟩
    exact ⟨_, _, _, (Moves.finished h hbuffer).run log, hnoted, rfl, rfl⟩
  · have hclosing := (Moves.closing h hbuffer).run log
    have hattempt := follows_attempt hfollows r.buffer
    cases hverdict : verdict log.attempts.length with
    | none =>
        rw [hverdict] at hattempt
        have hcommitted := (Moves.committed (r := { r with phase := .flushing .close }) rfl).run
          (log.note r .finished)
        exact ⟨_, _, _, hclosing.append hcommitted, hattempt, rfl, rfl⟩
    | some e =>
        rw [hverdict] at hattempt
        have hfailed := (Moves.commitFailed (r := { r with phase := .flushing .close }) rfl e).run
          (log.note r .finished)
        exact ⟨_, _, _, hclosing.append hfailed, hattempt, rfl, rfl⟩

/-- **A recorder ends,** whatever it hears, however the store answers and whether
or not its reports are taken. -/
theorem exists_run {s : RecorderSettings} (hbegin : (fresh s).canBegin)
    (inputs : List RecorderInput) (verdict : Nat → Option StoreError) (takes : Nat → Bool)
    (accepted : Bool) :
    ∃ es r log, Run logged (fresh s, .empty) es (r, log) ∧ r.phase = .ended ∧
      log.Follows verdict takes ∧ log.isDropped = !accepted ∧ log.heard <+: inputs ∧
      (r.failure = none → log.heard = inputs) := by
  have hfollows : RecorderLog.empty.Follows verdict takes := ⟨rfl, rfl⟩
  have hbegun := (Moves.begun (r := fresh s) rfl hbegin).run .empty
  obtain ⟨es, r₁, log₁, hrun, hfollows₁, hheard, hnext⟩ :=
    exists_heard_all (r := { fresh s with phase := .listening }) rfl hfollows inputs
  have hlast : ∀ {r : Recorder} {log : RecorderLog}, r.phase = .reporting → log.Follows verdict takes →
      Run logged (r, log) [.reported accepted]
          ({ r with phase := .ended, outcomes := 0, batches := 0 }, log.note r (.reported accepted)) ∧
        (log.note r (.reported accepted)).Follows verdict takes ∧
        (log.note r (.reported accepted)).isDropped = !accepted := fun hphase hfollows =>
    ⟨(Moves.reported hphase accepted).run _, ⟨hfollows.attempts, hfollows.offers⟩, rfl⟩
  rcases hnext with ⟨hlistening, hall⟩ | ⟨hreporting, hfailed⟩
  · obtain ⟨es', r₂, log₂, hrun', hfollows₂, hheard₂, hreporting⟩ :=
      exists_drained hlistening hfollows₁
    obtain ⟨hrun'', hfollows₃, hdropped⟩ := hlast hreporting hfollows₂
    refine ⟨_, _, _, ((hbegun.append hrun).append hrun').append hrun'', rfl, hfollows₃, hdropped,
      ?_, ?_⟩
    · show log₂.heard <+: inputs
      rw [hheard₂]
      exact hheard
    · intro _
      exact hheard₂.trans hall
  · obtain ⟨hrun', hfollows₂, hdropped⟩ := hlast hreporting hfollows₁
    exact ⟨_, _, _, (hbegun.append hrun).append hrun', rfl, hfollows₂, hdropped, hheard,
      fun hnone => absurd hnone hfailed⟩

end Endings

section Results

/-- Of batches all of which were taken, all are committed. -/
theorem committed_of_taken {attempts : List (List Outcome × Option StoreError)}
    (h : ∀ attempt ∈ attempts, attempt.2 = none) :
    (attempts.filter (·.2.isNone)).map (·.1) = attempts.map (·.1) := by
  rw [List.filter_eq_self.2]
  intro attempt hattempt
  rw [h attempt hattempt]
  rfl

/-- If the last batch failed and those before it were taken, those are committed. -/
theorem committed_of_failed {log : RecorderLog} {done : List (List Outcome × Option StoreError)}
    {batch : List Outcome} {e : StoreError} (hattempts : log.attempts = done ++ [(batch, some e)])
    (htaken : ∀ attempt ∈ done, attempt.2 = none) : log.committed = done.map (·.1) := by
  unfold RecorderLog.committed
  rw [hattempts, List.filter_append, List.map_append, committed_of_taken htaken]
  exact List.append_nil _

/-- An entry of a list is the last one, or it is among those before the last. -/
theorem last_or_mem {α : Type} {front done rest : List α} {last x : α}
    (h : done ++ x :: rest = front ++ [last]) : done = front ∧ x = last ∧ rest = [] ∨ x ∈ front := by
  rcases List.eq_nil_or_concat rest with rfl | ⟨rest', y, rfl⟩
  · obtain ⟨hdone, hlast⟩ := List.append_inj' h rfl
    exact .inl ⟨hdone, List.singleton_inj.1 hlast, rfl⟩
  · rw [List.concat_eq_append, ← List.cons_append, ← List.append_assoc] at h
    obtain ⟨hfront, _⟩ := List.append_inj' h rfl
    rw [← hfront]
    exact .inr (List.mem_append_right _ List.mem_cons_self)

/-- A failed batch is the last one: those before it are committed. -/
theorem Partitions.of_failed {chunk : Nat} {log : RecorderLog} (h : r.Partitions chunk log)
    (hended : r.phase = .ended) {done rest : List (List Outcome × Option StoreError)}
    {batch : List Outcome} {e : StoreError}
    (hattempts : log.attempts = done ++ (batch, some e) :: rest) :
    rest = [] ∧ log.committed = done.map (·.1) ∧ r.result? = some (.error (.persist e)) := by
  cases hfailure : r.failure with
  | none =>
      have hmem : (batch, some e) ∈ log.attempts := by
        rw [hattempts]
        exact List.mem_append_right _ List.mem_cons_self
      have htaken := h.failure.unfailed hfailure _ hmem
      cases htaken
  | some e' =>
      obtain ⟨_, front, hfront, htaken⟩ := h.failure.failed e' hfailure
      rw [hattempts] at hfront
      rcases last_or_mem hfront with ⟨rfl, hlast, rfl⟩ | hmem
      · obtain rfl : e = e' := Option.some.inj (Prod.mk.inj hlast).2
        refine ⟨rfl, committed_of_failed hattempts htaken, ?_⟩
        unfold result?
        rw [hended, hfailure]
      · cases htaken _ hmem

/-- A recorder all of whose batches were taken did not fail. -/
theorem Partitions.failure_of_taken {chunk : Nat} {log : RecorderLog} (h : r.Partitions chunk log)
    (htaken : ∀ attempt ∈ log.attempts, attempt.2 = none) : r.failure = none := by
  cases hfailure : r.failure with
  | none => rfl
  | some e =>
      obtain ⟨_, done, hattempts, _⟩ := h.failure.failed e hfailure
      have hmem : (r.buffer, some e) ∈ log.attempts := by
        rw [hattempts]
        exact List.mem_append_right _ List.mem_cons_self
      cases htaken _ hmem

/-- In the end the batches, also one that failed, are what was received. -/
theorem Partitions.flatten_batches {chunk : Nat} {log : RecorderLog} (h : r.Partitions chunk log)
    (hended : r.phase = .ended) : log.batches.flatten = log.received := by
  have hbuffer := h.buffer
  unfold BufferFits at hbuffer
  rw [hended] at hbuffer
  cases hfailure : r.failure with
  | none =>
      have hcommitted : log.committed = log.batches :=
        committed_of_taken (h.failure.unfailed hfailure)
      rw [h.received, hcommitted, hbuffer hfailure, List.append_nil]
  | some e =>
      obtain ⟨_, done, hattempts, htaken⟩ := h.failure.failed e hfailure
      have hcommitted := committed_of_failed hattempts htaken
      have hbatches : log.batches = done.map (·.1) ++ [r.buffer] := by
        unfold RecorderLog.batches
        rw [hattempts, List.map_append]
        rfl
      rw [h.received, hcommitted, hbatches, List.flatten_append, List.flatten_singleton]

/-- **The batches are a partition.**  Whatever a recorder hears, whichever of its
batches fail and whichever of its reports are taken: while it listens its buffer
is not full, and no batch is empty or too long.  When it has ended, its batches
one after another are the outcomes it received, in their order.  If none of them
failed, all are committed.  If one failed, it is the last, those before it are
committed, and the recorder fails as it did.  What it reported, if the last
report was taken, is what it committed.  And it always ends; unless a batch
fails, it has then heard everything. -/
theorem commits_partition {s : RecorderSettings} (hbegin : (fresh s).canBegin) :
    (∀ es r log, Run logged (fresh s, .empty) es (r, log) →
      (r.phase = .listening → r.buffer.length < max s.chunkSize 1) ∧
      (∀ batch ∈ log.batches, 1 ≤ batch.length ∧ batch.length ≤ max s.chunkSize 1) ∧
      (r.phase = .ended →
        log.batches.flatten = log.received ∧
        ((∀ attempt ∈ log.attempts, attempt.2 = none) →
          log.committed = log.batches ∧ r.result? = some (.ok ())) ∧
        (∀ done batch e rest, log.attempts = done ++ (batch, some e) :: rest →
          rest = [] ∧ log.committed = done.map (·.1) ∧
            r.result? = some (.error (.persist e))) ∧
        (log.isDropped = false →
          log.reported.recorded = log.committed.flatten.length ∧
            log.reported.batches = log.committed.length))) ∧
    (∀ inputs verdict takes accepted, ∃ es r log, Run logged (fresh s, .empty) es (r, log) ∧
      r.phase = .ended ∧ log.Follows verdict takes ∧ (log.isDropped = !accepted) ∧
      log.heard <+: inputs ∧
      ((∀ attempt ∈ log.attempts, attempt.2 = none) → log.heard = inputs)) := by
  constructor
  · intro es r log hrun
    obtain ⟨hpartitions, haccounts⟩ := tells_of_run hrun
    have hbuffer := hpartitions.buffer
    unfold BufferFits at hbuffer
    refine ⟨?_, hpartitions.sizes, ?_⟩
    · intro hphase
      rw [hphase, hpartitions.chunkSize] at hbuffer
      exact hbuffer
    · intro hended
      obtain ⟨houtcomes, hbatches⟩ := cleared_of_run hrun hended
      refine ⟨hpartitions.flatten_batches hended, ?_, ?_, ?_⟩
      · intro htaken
        refine ⟨committed_of_taken htaken, ?_⟩
        unfold result?
        rw [hended, hpartitions.failure_of_taken htaken]
      · exact fun done batch e rest hattempts => hpartitions.of_failed hended hattempts
      · intro hdropped
        have hreported := haccounts.outcomes hdropped
        have hreported' := haccounts.batches hdropped
        rw [houtcomes] at hreported
        rw [hbatches] at hreported'
        exact ⟨hreported, hreported'⟩
  · intro inputs verdict takes accepted
    obtain ⟨es, r, log, hrun, hended, hfollows, hdropped, hheard, hall⟩ :=
      exists_run hbegin inputs verdict takes accepted
    refine ⟨es, r, log, hrun, hended, hfollows, hdropped, hheard, ?_⟩
    intro htaken
    exact hall ((tells_of_run hrun).1.failure_of_taken htaken)

/-- An outcome, a tick that commits it, another outcome, and the end: the second
batch fails. -/
theorem commits_partition_second_batch_fails :
    ∃ (es : List RecorderEvent) (r : Recorder) (log : RecorderLog),
      (fresh ⟨.nil, 2, 1000⟩).canBegin ∧ Run logged (fresh ⟨.nil, 2, 1000⟩, .empty) es (r, log) ∧
      r.phase = .ended ∧ log.attempts.map (·.2) = [none, some (.unavailable .rejected)] ∧
      log.batches.flatten = log.received ∧
      r.result? = some (.error (.persist (.unavailable .rejected))) := by
  let o : Outcome := ⟨default, default, 7, none⟩
  let es : List RecorderEvent := [.begun, .received o, .ticked, .committed, .offered true,
    .received o, .finished, .commitFailed (.unavailable .rejected), .reported true]
  let r : Recorder := ⟨2, 1000, .ended, [o], 0, 0, some (.unavailable .rejected)⟩
  let log : RecorderLog := ⟨[.outcome o, .tick, .outcome o],
    [([o], none), ([o], some (.unavailable .rejected))], [(.committed 1 1, true)],
    some (.committed 0 0, true)⟩
  have hbegin : (fresh ⟨.nil, 2, 1000⟩).canBegin := by decide
  have hrun : Run logged (fresh ⟨.nil, 2, 1000⟩, .empty) es (r, log) := Run.iff_foldlM.2 (by rfl)
  obtain ⟨_, _, hending⟩ := (commits_partition hbegin).1 es r log hrun
  obtain ⟨hflatten, _, hfailed, _⟩ := hending rfl
  obtain ⟨_, _, hresult⟩ := hfailed [([o], none)] [o] (.unavailable .rejected) [] rfl
  exact ⟨es, r, log, hbegin, hrun, rfl, rfl, hflatten, hresult⟩

/-- A recorder that cannot begin hears nothing and is torn down. -/
theorem log_eq_empty_of_not_canBegin {s : RecorderSettings} (hbegin : (fresh s).canBegin = false)
    {es : List RecorderEvent} {log : RecorderLog} (h : Run logged (fresh s, .empty) es (r, log)) :
    (r = fresh s ∨ r.phase = .tornDown) ∧ log = .empty := by
  refine h.invariant (P := fun now => (now.1 = fresh s ∨ now.1.phase = .tornDown) ∧
    now.2 = .empty) ⟨.inl rfl, rfl⟩ ?_
  intro now e next hnow hstep
  obtain ⟨r, log⟩ := now
  obtain ⟨hstays | htorn, rfl⟩ := hnow
  · obtain rfl : r = fresh s := hstays
    obtain ⟨hmoves, hlog⟩ := noting_eq_some.1 hstep
    have hmoves := step_eq_some_iff.1 hmoves
    rw [hlog]
    generalize next.1 = r' at hmoves
    cases hmoves with
    | begun hphase hbegun =>
        rw [hbegun] at hbegin
        cases hbegin
    | tornDown hphase _ => exact ⟨.inr rfl, rfl⟩
    | gathered hphase | filled hphase | ticked hphase | idled hphase | finished hphase
    | closing hphase | committed hphase | commitFailed hphase | offered hphase | reported hphase =>
        cases hphase
  · obtain ⟨hmoves, _⟩ := noting_eq_some.1 hstep
    have hmoves := step_eq_some_iff.1 hmoves
    have htorn : r.phase = .tornDown := htorn
    generalize next.1 = r' at hmoves
    cases hmoves with
    | begun hphase | tornDown hphase | gathered hphase | filled hphase | ticked hphase
    | idled hphase | finished hphase | closing hphase | committed hphase | commitFailed hphase
    | offered hphase | reported hphase =>
        rw [hphase] at htorn
        cases htorn

/-- A recorder of these settings is torn down, and hears nothing before it is. -/
def HearsNothing (s : RecorderSettings) : Prop :=
  (∃ es r log, Run logged (fresh s, .empty) es (r, log) ∧
    r.result? = some (.error (.torn .recorder))) ∧
  ∀ es r log, Run logged (fresh s, .empty) es (r, log) →
    log.heard = [] ∧ log.committed = [] ∧ r.result? ≠ some (.ok ())

/-- A recorder that cannot begin is torn down, and hears nothing. -/
theorem hearsNothing_of_not_canBegin {s : RecorderSettings}
    (hbegin : (fresh s).canBegin = false) : HearsNothing s := by
  constructor
  · exact ⟨_, _, _, (Moves.tornDown (r := fresh s) rfl hbegin).run .empty, rfl⟩
  · intro es r log hrun
    obtain ⟨hr, rfl⟩ := log_eq_empty_of_not_canBegin hbegin hrun
    refine ⟨rfl, rfl, ?_⟩
    rcases hr with rfl | hphase
    · intro hresult
      cases hresult
    · unfold result?
      rw [hphase]
      intro hresult
      cases hresult

/-- A recorder whose buffer there is no room for, or whose clock never ticks,
commits nothing: it is torn down before it hears anything. -/
theorem commits_nothing_if_torn_down :
    HearsNothing ⟨.nil, 18446744073709551615, 1000⟩ ∧ HearsNothing ⟨.nil, 1, 0⟩ :=
  ⟨hearsNothing_of_not_canBegin (by decide), hearsNothing_of_not_canBegin (by decide)⟩

end Results

end Recorder

end PeerWatch
