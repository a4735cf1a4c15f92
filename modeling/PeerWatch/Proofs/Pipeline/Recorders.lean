import PeerWatch.Proofs.Pipeline.Runs

/-!
# A recorder and its log

A recorder cuts what it receives into batches.  Where it cuts depends on the
size of its buffer, on the ticks and on the end of what it receives; that
nothing is lost, doubled or moved does not.  It stops at the first batch that
fails.  What it reports is what it committed, however often its offers are
turned down.

* `Recorder.Moves`, `Recorder.step_eq_some_iff` — all that can happen to a
  recorder;
* `RecorderLog` — what a recorder heard, handed to the store and reported;
* `Recorder.Partitions`, `Recorder.Accounts` — what a recorder tells of its log;
* `Recorder.Partitions.step`, `Recorder.Accounts.step`, `Recorder.tells_of_run` —
  one event, and a whole run.
-/

namespace PeerWatch

/-- What a recorder hears, until there is no more. -/
inductive RecorderInput where
  | outcome (o : Outcome)
  /-- A tick of its clock. -/
  | tick
deriving DecidableEq

/-- The outcome that was heard, if it was no tick. -/
def RecorderInput.outcome? : RecorderInput → Option Outcome
  | .outcome o => some o
  | .tick => none

/-- What a recorder has done. -/
structure RecorderLog where
  heard : List RecorderInput
  /-- The batches handed to the store, each with the error if it failed. -/
  attempts : List (List Outcome × Option StoreError)
  /-- The reports offered, each with whether the offer was accepted. -/
  offers : List (Report × Bool)
  /-- The last report, with whether it was accepted. -/
  last : Option (Report × Bool)
deriving DecidableEq

namespace RecorderLog

def empty : RecorderLog := ⟨[], [], [], none⟩

/-- One more event at a recorder. -/
def note (log : RecorderLog) (r : Recorder) : RecorderEvent → RecorderLog
  | .received o => { log with heard := log.heard ++ [.outcome o] }
  | .ticked => { log with heard := log.heard ++ [.tick] }
  | .idled accepted =>
    { log with heard := log.heard ++ [.tick], offers := log.offers ++ [(r.pending, accepted)] }
  | .committed => { log with attempts := log.attempts ++ [(r.buffer, none)] }
  | .commitFailed e => { log with attempts := log.attempts ++ [(r.buffer, some e)] }
  | .offered accepted => { log with offers := log.offers ++ [(r.pending, accepted)] }
  | .reported accepted => { log with last := some (r.pending, accepted) }
  | .begun | .finished | .tornDown => log

/-- The outcomes received. -/
def received (log : RecorderLog) : List Outcome := log.heard.filterMap RecorderInput.outcome?

/-- The batches handed to the store. -/
def batches (log : RecorderLog) : List (List Outcome) := log.attempts.map (·.1)

/-- The batches that the store took. -/
def committed (log : RecorderLog) : List (List Outcome) :=
  (log.attempts.filter (·.2.isNone)).map (·.1)

/-- The reports that were accepted, added up. -/
def reported (log : RecorderLog) : Totals :=
  Totals.zero.applyAll (((log.offers ++ log.last.toList).filter (·.2)).map (·.1))

/-- The batches and the offers were answered as they were to be. -/
structure Follows (log : RecorderLog) (verdict : Nat → Option StoreError) (takes : Nat → Bool) :
    Prop where
  attempts : log.attempts.map (·.2) = (List.range log.attempts.length).map verdict
  offers : log.offers.map (·.2) = (List.range log.offers.length).map takes

/-- The last report was turned away. -/
def isDropped (log : RecorderLog) : Bool := log.last.any fun report => !report.2

end RecorderLog

namespace Recorder

variable {r r' : Recorder}

/-- All that can happen to a recorder. -/
inductive Moves (r : Recorder) : RecorderEvent → Recorder → Prop
  | begun (h : r.phase = .beginning) (hbegin : r.canBegin) :
    Moves r .begun { r with phase := .listening }
  | tornDown (h : r.phase = .beginning) (hbegin : r.canBegin = false) :
    Moves r .tornDown { r with phase := .tornDown }
  | gathered (h : r.phase = .listening) (o : Outcome) (hroom : r.buffer.length + 1 < r.chunkSize) :
    Moves r (.received o) { r with buffer := r.buffer ++ [o] }
  | filled (h : r.phase = .listening) (o : Outcome) (hfull : r.chunkSize ≤ r.buffer.length + 1) :
    Moves r (.received o) { r with buffer := r.buffer ++ [o], phase := .flushing .full }
  | ticked (h : r.phase = .listening) (hbuffer : r.buffer ≠ []) :
    Moves r .ticked { r with phase := .flushing .tick }
  | idled (h : r.phase = .listening) (hbuffer : r.buffer = []) (accepted : Bool) :
    Moves r (.idled accepted) (r.afterOffer accepted)
  | finished (h : r.phase = .listening) (hbuffer : r.buffer = []) :
    Moves r .finished { r with phase := .reporting }
  | closing (h : r.phase = .listening) (hbuffer : r.buffer ≠ []) :
    Moves r .finished { r with phase := .flushing .close }
  | committed {cause : FlushCause} (h : r.phase = .flushing cause) :
    Moves r .committed
      { r with outcomes := r.outcomes + r.buffer.length, batches := r.batches + 1, buffer := [],
               phase := if cause = .close then .reporting else .offering cause }
  | commitFailed {cause : FlushCause} (h : r.phase = .flushing cause) (e : StoreError) :
    Moves r (.commitFailed e) { r with phase := .reporting, failure := some e }
  | offered {cause : FlushCause} (h : r.phase = .offering cause) (accepted : Bool) :
    Moves r (.offered accepted) { r.afterOffer accepted with phase := .listening }
  | reported (h : r.phase = .reporting) (accepted : Bool) :
    Moves r (.reported accepted) { r with phase := .ended, outcomes := 0, batches := 0 }

/-- The events of a recorder are the ways in which it can go. -/
theorem step_eq_some_iff {e : RecorderEvent} : r.step e = some r' ↔ r.Moves e r' := by
  constructor
  · intro h
    unfold step at h
    split at h
    case h_1 hphase =>
      split at h
      · next hbegin =>
          obtain rfl := Option.some.inj h
          exact .begun hphase hbegin
      · cases h
    case h_2 hphase =>
      split at h
      · cases h
      · next hbegin =>
          obtain rfl := Option.some.inj h
          exact .tornDown hphase (Bool.eq_false_iff.2 hbegin)
    case h_3 o hphase =>
      obtain rfl := Option.some.inj h
      rw [List.length_append, List.length_singleton]
      by_cases hfull : r.chunkSize ≤ r.buffer.length + 1
      · rw [if_pos hfull]
        exact .filled hphase o hfull
      · have hmoves := Moves.gathered hphase o (Nat.lt_of_not_le hfull)
        rw [if_neg hfull, ← hphase]
        exact hmoves
    case h_4 hphase =>
      split at h
      · cases h
      · next hbuffer =>
          obtain rfl := Option.some.inj h
          exact .ticked hphase fun hnil => hbuffer (List.isEmpty_iff.2 hnil)
    case h_5 accepted hphase =>
      split at h
      · next hbuffer =>
          obtain rfl := Option.some.inj h
          exact .idled hphase (List.isEmpty_iff.1 hbuffer) accepted
      · cases h
    case h_6 hphase =>
      obtain rfl := Option.some.inj h
      by_cases hbuffer : r.buffer = []
      · rw [if_pos (List.isEmpty_iff.2 hbuffer)]
        exact .finished hphase hbuffer
      · rw [if_neg fun hnil => hbuffer (List.isEmpty_iff.1 hnil)]
        exact .closing hphase hbuffer
    case h_7 cause hphase =>
      obtain rfl := Option.some.inj h
      exact .committed hphase
    case h_8 e cause hphase =>
      obtain rfl := Option.some.inj h
      exact .commitFailed hphase e
    case h_9 accepted cause hphase =>
      obtain rfl := Option.some.inj h
      exact .offered hphase accepted
    case h_10 accepted hphase =>
      obtain rfl := Option.some.inj h
      exact .reported hphase accepted
    case h_11 => cases h
  · intro h
    cases h with
    | begun hphase hbegin => simp [step, hphase, hbegin]
    | tornDown hphase hbegin => simp [step, hphase, hbegin]
    | gathered hphase o hroom => simp [step, hphase, Nat.not_le_of_lt hroom]
    | filled hphase o hfull => simp [step, hphase, hfull]
    | ticked hphase hbuffer => simp [step, hphase, hbuffer]
    | idled hphase hbuffer accepted => simp [step, hphase, hbuffer]
    | finished hphase hbuffer => simp [step, hphase, hbuffer]
    | closing hphase hbuffer => simp [step, hphase, hbuffer]
    | committed hphase => simp [step, hphase]
    | commitFailed hphase e => simp [step, hphase]
    | offered hphase accepted => simp [step, hphase]
    | reported hphase accepted => simp [step, hphase]

/-- What the buffer of a recorder holds, by what it is about. -/
def BufferFits (r : Recorder) : Prop :=
  match r.phase with
  | .beginning | .tornDown | .offering _ => r.buffer = []
  | .listening => r.buffer.length < r.chunkSize
  | .flushing _ => r.buffer ≠ [] ∧ r.buffer.length ≤ r.chunkSize
  | .reporting | .ended => r.failure = none → r.buffer = []

/-- The failure of a recorder is the failure of the last batch, and of no other. -/
structure FailsLast (r : Recorder) (log : RecorderLog) : Prop where
  unfailed : r.failure = none → ∀ attempt ∈ log.attempts, attempt.2 = none
  failed : ∀ e, r.failure = some e → (r.phase = .reporting ∨ r.phase = .ended) ∧
    ∃ done, log.attempts = done ++ [(r.buffer, some e)] ∧ ∀ attempt ∈ done, attempt.2 = none

/-- **What a recorder commits.**  The batches that the store took and what is in
the buffer are what was received. -/
structure Partitions (chunk : Nat) (r : Recorder) (log : RecorderLog) : Prop where
  chunkSize : r.chunkSize = chunk
  received : log.received = log.committed.flatten ++ r.buffer
  sizes : ∀ batch ∈ log.batches, 1 ≤ batch.length ∧ batch.length ≤ chunk
  buffer : r.BufferFits
  failure : r.FailsLast log

/-- **What a recorder reports.**  What was reported and what is pending are what
was committed, unless the last report was turned away. -/
structure Accounts (r : Recorder) (log : RecorderLog) : Prop where
  last : r.phase ≠ .ended → log.last = none
  outcomes : log.isDropped = false →
    log.reported.recorded + r.outcomes = log.committed.flatten.length
  batches : log.isDropped = false → log.reported.batches + r.batches = log.committed.length

section Logs

variable (log : RecorderLog)

/-- A batch that is committed is the buffer. -/
theorem committed_committed (r : Recorder) :
    (log.note r .committed).committed = log.committed ++ [r.buffer] := by
  simp [RecorderLog.committed, RecorderLog.note]

theorem committed_commitFailed (r : Recorder) (e : StoreError) :
    (log.note r (.commitFailed e)).committed = log.committed := by
  simp [RecorderLog.committed, RecorderLog.note]

theorem received_received (r : Recorder) (o : Outcome) :
    (log.note r (.received o)).received = log.received ++ [o] := by
  simp [RecorderLog.received, RecorderLog.note, RecorderInput.outcome?]

theorem received_ticked (r : Recorder) : (log.note r .ticked).received = log.received := by
  simp [RecorderLog.received, RecorderLog.note, RecorderInput.outcome?]

theorem received_idled (r : Recorder) (accepted : Bool) :
    (log.note r (.idled accepted)).received = log.received := by
  simp [RecorderLog.received, RecorderLog.note, RecorderInput.outcome?]

variable {log}

/-- An offer adds what was pending to what is reported, if it is accepted. -/
theorem reported_offer (hlast : log.last = none) (report : Report) (accepted : Bool) :
    ({ log with offers := log.offers ++ [(report, accepted)] } : RecorderLog).reported =
      if accepted then log.reported.apply report else log.reported := by
  unfold RecorderLog.reported
  rw [hlast]
  cases accepted <;> simp [List.filter_append, Totals.applyAll]

/-- So does the last report. -/
theorem reported_last (hlast : log.last = none) (report : Report) (accepted : Bool) :
    ({ log with last := some (report, accepted) } : RecorderLog).reported =
      if accepted then log.reported.apply report else log.reported := by
  unfold RecorderLog.reported
  rw [hlast]
  cases accepted <;> simp [List.filter_append, Totals.applyAll]

end Logs

section Steps

variable {chunk : Nat} {log : RecorderLog} {e : RecorderEvent}

/-- A recorder all of whose batches were taken has not failed at any. -/
theorem FailsLast.of_unfailed (h : r.failure = none)
    (hattempts : ∀ attempt ∈ log.attempts, attempt.2 = none) : r.FailsLast log where
  unfailed _ := hattempts
  failed e he := by
    rw [h] at he
    cases he

/-- Before its end a recorder has not failed. -/
theorem FailsLast.failure_eq_none (h : r.FailsLast log) (hreporting : r.phase ≠ .reporting)
    (hended : r.phase ≠ .ended) : r.failure = none := by
  cases hcase : r.failure with
  | none => rfl
  | some e =>
      rcases (h.failed e hcase).1 with hphase | hphase
      · exact absurd hphase hreporting
      · exact absurd hphase hended

/-- An offer to report changes nothing that a recorder tells of its batches. -/
theorem afterOffer_eq (r : Recorder) (accepted : Bool) :
    (r.afterOffer accepted).chunkSize = r.chunkSize ∧ (r.afterOffer accepted).phase = r.phase ∧
      (r.afterOffer accepted).buffer = r.buffer ∧
      (r.afterOffer accepted).failure = r.failure := by
  cases accepted <;> exact ⟨rfl, rfl, rfl, rfl⟩

/-- A batch that fits is handed to the store after batches that fit. -/
theorem sizes_snoc (h : ∀ batch ∈ log.batches, 1 ≤ batch.length ∧ batch.length ≤ chunk)
    {batch : List Outcome} (hbatch : batch ≠ [] ∧ batch.length ≤ chunk)
    {answer : Option StoreError} :
    ∀ b ∈ ({ log with attempts := log.attempts ++ [(batch, answer)] } : RecorderLog).batches,
      1 ≤ b.length ∧ b.length ≤ chunk := by
  intro b hb
  unfold RecorderLog.batches at hb
  rw [List.map_append] at hb
  rcases List.mem_append.1 hb with hb | hb
  · exact h b hb
  · obtain rfl := List.mem_singleton.1 hb
    exact ⟨List.length_pos_iff.2 hbatch.1, hbatch.2⟩

/-- **One event** keeps the partition. -/
theorem Partitions.step (hchunk : 1 ≤ chunk) (h : r.Partitions chunk log) (hmoves : r.Moves e r') :
    r'.Partitions chunk (log.note r e) := by
  have hbuffer := h.buffer
  have hsize := h.chunkSize
  unfold BufferFits at hbuffer
  -- all events but the last one happen to a recorder that has not failed
  have hgood : r.phase ≠ .reporting → r.phase ≠ .ended →
      r.failure = none ∧ ∀ attempt ∈ log.attempts, attempt.2 = none := by
    intro hreporting hended
    have hnone := h.failure.failure_eq_none hreporting hended
    exact ⟨hnone, h.failure.unfailed hnone⟩
  cases hmoves with
  | begun hphase hbegin =>
      obtain ⟨hnone, hattempts⟩ := hgood (by simp [hphase]) (by simp [hphase])
      rw [hphase] at hbuffer
      have hfits : r.buffer.length < r.chunkSize := by
        rw [hbuffer, hsize]
        exact hchunk
      exact ⟨hsize, h.received, h.sizes, hfits, .of_unfailed hnone hattempts⟩
  | tornDown hphase hbegin =>
      obtain ⟨hnone, hattempts⟩ := hgood (by simp [hphase]) (by simp [hphase])
      rw [hphase] at hbuffer
      exact ⟨hsize, h.received, h.sizes, hbuffer, .of_unfailed hnone hattempts⟩
  | gathered hphase o hroom =>
      obtain ⟨hnone, hattempts⟩ := hgood (by simp [hphase]) (by simp [hphase])
      refine ⟨hsize, ?_, h.sizes, ?_, .of_unfailed hnone hattempts⟩
      · rw [received_received, h.received, List.append_assoc]
        rfl
      · unfold BufferFits
        simp only [hphase, List.length_append, List.length_singleton]
        exact hroom
  | filled hphase o hfull =>
      obtain ⟨hnone, hattempts⟩ := hgood (by simp [hphase]) (by simp [hphase])
      rw [hphase] at hbuffer
      refine ⟨hsize, ?_, h.sizes, ⟨by simp, ?_⟩, .of_unfailed hnone hattempts⟩
      · rw [received_received, h.received, List.append_assoc]
        rfl
      · rw [List.length_append, List.length_singleton]
        exact hbuffer
  | ticked hphase hnonempty =>
      obtain ⟨hnone, hattempts⟩ := hgood (by simp [hphase]) (by simp [hphase])
      rw [hphase] at hbuffer
      refine ⟨hsize, ?_, h.sizes, ⟨hnonempty, Nat.le_of_lt hbuffer⟩, .of_unfailed hnone hattempts⟩
      rw [received_ticked]
      exact h.received
  | idled hphase hempty accepted =>
      obtain ⟨hnone, hattempts⟩ := hgood (by simp [hphase]) (by simp [hphase])
      obtain ⟨hsize', hphase', hbuffer', hfailure'⟩ := afterOffer_eq r accepted
      refine ⟨hsize'.trans hsize, ?_, h.sizes, ?_, .of_unfailed (hfailure'.trans hnone) hattempts⟩
      · rw [received_idled, hbuffer']
        exact h.received
      · rw [hphase] at hbuffer
        unfold BufferFits
        rw [hphase', hphase, hbuffer', hsize']
        exact hbuffer
  | finished hphase hempty =>
      obtain ⟨hnone, hattempts⟩ := hgood (by simp [hphase]) (by simp [hphase])
      exact ⟨hsize, h.received, h.sizes, fun _ => hempty, .of_unfailed hnone hattempts⟩
  | closing hphase hnonempty =>
      obtain ⟨hnone, hattempts⟩ := hgood (by simp [hphase]) (by simp [hphase])
      rw [hphase] at hbuffer
      exact ⟨hsize, h.received, h.sizes, ⟨hnonempty, Nat.le_of_lt hbuffer⟩,
        .of_unfailed hnone hattempts⟩
  | @committed cause hphase =>
      obtain ⟨hnone, hattempts⟩ := hgood (by simp [hphase]) (by simp [hphase])
      rw [hphase, hsize] at hbuffer
      refine ⟨hsize, ?_, ?_, ?_, .of_unfailed hnone ?_⟩
      · rw [committed_committed, List.flatten_append, List.flatten_singleton, List.append_nil]
        exact h.received
      · exact sizes_snoc h.sizes hbuffer
      · unfold BufferFits
        by_cases hclose : cause = .close
        · simp [hclose]
        · simp [hclose]
      · intro attempt hattempt
        rcases List.mem_append.1 hattempt with hattempt | hattempt
        · exact hattempts attempt hattempt
        · obtain rfl := List.mem_singleton.1 hattempt
          rfl
  | @commitFailed cause hphase e =>
      obtain ⟨hnone, hattempts⟩ := hgood (by simp [hphase]) (by simp [hphase])
      rw [hphase, hsize] at hbuffer
      refine ⟨hsize, ?_, sizes_snoc h.sizes hbuffer, ?_, ?_, ?_⟩
      · rw [committed_commitFailed]
        exact h.received
      · intro hfailure
        cases hfailure
      · intro hfailure
        cases hfailure
      · intro e' he'
        obtain rfl := Option.some.inj he'
        exact ⟨.inl rfl, log.attempts, rfl, hattempts⟩
  | @offered cause hphase accepted =>
      obtain ⟨hnone, hattempts⟩ := hgood (by simp [hphase]) (by simp [hphase])
      obtain ⟨hsize', _, hbuffer', hfailure'⟩ := afterOffer_eq r accepted
      rw [hphase] at hbuffer
      refine ⟨hsize'.trans hsize, ?_, h.sizes, ?_, .of_unfailed (hfailure'.trans hnone) hattempts⟩
      · show log.received = log.committed.flatten ++ (r.afterOffer accepted).buffer
        rw [hbuffer']
        exact h.received
      · show (r.afterOffer accepted).buffer.length < (r.afterOffer accepted).chunkSize
        rw [hbuffer', hsize', hbuffer, hsize]
        exact hchunk
  | reported hphase accepted =>
      rw [hphase] at hbuffer
      refine ⟨hsize, h.received, h.sizes, hbuffer, h.failure.unfailed, ?_⟩
      intro e he
      exact ⟨.inr rfl, (h.failure.failed e he).2⟩

/-- An offer moves what is pending to what was reported, or leaves both. -/
theorem Accounts.offer (h : r.Accounts log) (hlast : log.last = none) (accepted : Bool) :
    (log.isDropped = false → ({ log with offers := log.offers ++ [(r.pending, accepted)] } :
        RecorderLog).reported.recorded + (r.afterOffer accepted).outcomes =
      log.committed.flatten.length) ∧
    (log.isDropped = false → ({ log with offers := log.offers ++ [(r.pending, accepted)] } :
        RecorderLog).reported.batches + (r.afterOffer accepted).batches =
      log.committed.length) := by
  rw [reported_offer hlast]
  cases accepted <;> exact ⟨h.outcomes, h.batches⟩

/-- **One event** keeps the accounts. -/
theorem Accounts.step (h : r.Accounts log) (hmoves : r.Moves e r') :
    r'.Accounts (log.note r e) := by
  cases hmoves with
  | begun hphase hbegin => exact ⟨fun _ => h.last (by simp [hphase]), h.outcomes, h.batches⟩
  | tornDown hphase hbegin => exact ⟨fun _ => h.last (by simp [hphase]), h.outcomes, h.batches⟩
  | gathered hphase o hroom => exact ⟨fun _ => h.last (by simp [hphase]), h.outcomes, h.batches⟩
  | filled hphase o hfull => exact ⟨fun _ => h.last (by simp [hphase]), h.outcomes, h.batches⟩
  | ticked hphase hnonempty => exact ⟨fun _ => h.last (by simp [hphase]), h.outcomes, h.batches⟩
  | finished hphase hempty => exact ⟨fun _ => h.last (by simp [hphase]), h.outcomes, h.batches⟩
  | closing hphase hnonempty => exact ⟨fun _ => h.last (by simp [hphase]), h.outcomes, h.batches⟩
  | idled hphase hempty accepted =>
      have hlast := h.last (by simp [hphase])
      obtain ⟨houtcomes, hbatches⟩ := h.offer hlast accepted
      exact ⟨fun _ => hlast, houtcomes, hbatches⟩
  | committed hphase =>
      refine ⟨fun _ => h.last (by simp [hphase]), ?_, ?_⟩
      · intro hdropped
        rw [committed_committed, List.flatten_append, List.flatten_singleton, List.length_append,
          ← h.outcomes hdropped, Nat.add_assoc]
        rfl
      · intro hdropped
        rw [committed_committed, List.length_append, ← h.batches hdropped, Nat.add_assoc]
        rfl
  | commitFailed hphase e =>
      refine ⟨fun _ => h.last (by simp [hphase]), ?_, ?_⟩
      · rw [committed_commitFailed]
        exact h.outcomes
      · rw [committed_commitFailed]
        exact h.batches
  | offered hphase accepted =>
      have hlast := h.last (by simp [hphase])
      obtain ⟨houtcomes, hbatches⟩ := h.offer hlast accepted
      exact ⟨fun _ => hlast, houtcomes, hbatches⟩
  | reported hphase accepted =>
      have hlast := h.last (by simp [hphase])
      have hkept : log.isDropped = false := by
        unfold RecorderLog.isDropped
        rw [hlast]
        rfl
      refine ⟨fun hended => absurd rfl hended, ?_, ?_⟩
      · intro haccepted
        have haccepted : accepted = true := by
          simpa [RecorderLog.isDropped, RecorderLog.note] using haccepted
        rw [RecorderLog.note, reported_last hlast, if_pos haccepted]
        exact h.outcomes hkept
      · intro haccepted
        have haccepted : accepted = true := by
          simpa [RecorderLog.isDropped, RecorderLog.note] using haccepted
        rw [RecorderLog.note, reported_last hlast, if_pos haccepted]
        exact h.batches hkept

end Steps

section Runs

/-- A recorder with its log after an event. -/
def logged (now : Recorder × RecorderLog) (e : RecorderEvent) : Option (Recorder × RecorderLog) :=
  noting Recorder.step RecorderLog.note now e

variable {s : RecorderSettings} {log : RecorderLog} {es : List RecorderEvent}

/-- The size of the buffer: a batch has at least one outcome. -/
theorem one_le_chunk (s : RecorderSettings) : 1 ≤ max s.chunkSize 1 := Nat.le_max_right _ _

/-- A recorder that has not begun has nothing to partition. -/
theorem partitions_fresh (s : RecorderSettings) :
    (fresh s).Partitions (max s.chunkSize 1) .empty where
  chunkSize := rfl
  received := rfl
  sizes _ h := by cases h
  buffer := rfl
  failure := .of_unfailed rfl fun _ h => by cases h

/-- A recorder that has not begun has nothing to account for. -/
theorem accounts_fresh (s : RecorderSettings) : (fresh s).Accounts .empty where
  last _ := rfl
  outcomes _ := rfl
  batches _ := rfl

/-- **Wherever a run leads,** what was committed and what is in the buffer is what
was received, and the accounts are right. -/
theorem tells_of_run (h : Run logged (fresh s, .empty) es (r, log)) :
    r.Partitions (max s.chunkSize 1) log ∧ r.Accounts log := by
  refine h.invariant (P := fun now => now.1.Partitions (max s.chunkSize 1) now.2 ∧
    now.1.Accounts now.2) ⟨partitions_fresh s, accounts_fresh s⟩ ?_
  intro now e next hnow hstep
  obtain ⟨hmoves, hlog⟩ := noting_eq_some.1 hstep
  have hmoves := step_eq_some_iff.1 hmoves
  rw [hlog]
  exact ⟨hnow.1.step (one_le_chunk s) hmoves, hnow.2.step hmoves⟩

/-- A recorder that comes to its end has nothing pending. -/
theorem Moves.cleared {e : RecorderEvent} (h : r.Moves e r') (hended : r'.phase = .ended) :
    r'.outcomes = 0 ∧ r'.batches = 0 := by
  cases h with
  | reported hphase accepted => exact ⟨rfl, rfl⟩
  | idled hphase hbuffer accepted =>
      rw [(afterOffer_eq r accepted).2.1, hphase] at hended
      cases hended
  | gathered hphase o hroom =>
      have hended : r.phase = .ended := hended
      rw [hphase] at hended
      cases hended
  | @committed cause hphase =>
      have hended : (if cause = .close then RecorderPhase.reporting else .offering cause) = .ended :=
        hended
      split at hended <;> cases hended
  | _ => cases hended

/-- A recorder that has ended has reported all it counted. -/
theorem cleared_of_run (h : Run logged (fresh s, .empty) es (r, log)) (hended : r.phase = .ended) :
    r.outcomes = 0 ∧ r.batches = 0 := by
  cases h with
  | nil => cases hended
  | snoc _ hstep => exact (step_eq_some_iff.1 (noting_eq_some.1 hstep).1).cleared hended

end Runs

end Recorder

end PeerWatch
