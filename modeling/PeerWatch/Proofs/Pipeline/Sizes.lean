import PeerWatch.Proofs.Pipeline.Tallies
import PeerWatch.Proofs.SettingsFaults
import PeerWatch.Rehearsal.Bench
import PeerWatch.Settings.Reading

/-!
# The sizes of a pipeline

Settings that are accepted have no size and no time that is zero; how large a size may be is
not checked.  A pipeline is begun with three channels, of which that for reports is four times
as large as the others, and with a buffer for the targets of a claim and one for the outcomes
of a batch.  Each of these can be had up to a bound of its own, so three settings decide
whether all of them can; beyond its bound a size tears down what asks for it.

* `System.IsUsable` — all that a pipeline is begun with can be had;
* `System.isCapacity_start_iff`, `System.isCapacity_reports_iff` — the channels;
* `Database.le_claimBound_iff`, `Recorder.le_chunkBound_iff` — the buffers;
* `Recorder.BeginsIf.step`, `System.recorder_beginsIf_of_run` — one event, and a whole run;
* `System.sizes_are_usable_within_bounds`.
-/

namespace PeerWatch

/-- The greatest number of 64 bits with a sign; no buffer has more bytes. -/
def signedWordBound : Nat := 9223372036854775807

/-- Whether a buffer can be had for so many entries of so many bytes each. -/
def IsBuffer (bytes entries : Nat) : Prop := bytes * entries ≤ signedWordBound

instance (bytes entries : Nat) : Decidable (IsBuffer bytes entries) :=
  inferInstanceAs (Decidable (bytes * entries ≤ signedWordBound))

/-- The bytes of a target in a buffer: 32 of its identity, 24 of its address, 12 of each of
two moments, 8 of its latency, one of its mode and one of its last result, in words of 8. -/
def Target.bytes : Nat := 96

/-- The bytes of an outcome in a buffer: 32 of its target, 12 of its moment, 4 of its latency
and 32 of its failure. -/
def Outcome.bytes : Nat := 80

/-- There is room for so many targets exactly within the bound for claims. -/
theorem Database.le_claimBound_iff {limit : Nat} :
    limit ≤ claimBound ↔ IsBuffer Target.bytes limit := by
  simp only [claimBound, IsBuffer, Target.bytes, signedWordBound]
  omega

/-- There is room for so many outcomes exactly within the bound for chunks. -/
theorem Recorder.le_chunkBound_iff {chunk : Nat} :
    chunk ≤ chunkBound ↔ IsBuffer Outcome.bytes chunk := by
  simp only [chunkBound, IsBuffer, Outcome.bytes, signedWordBound]
  omega

/-- A capacity is positive and within the bound. -/
theorem Channel.isCapacity_iff {capacity : Nat} :
    isCapacity capacity ↔ 0 < capacity ∧ capacity ≤ bound := by
  simp [isCapacity]

/-- **A claim tears its caller down** on a database with a table of targets, if there is no
buffer for its answer. -/
theorem Backend.claimTears_iff {b : Backend} {limit : Nat} :
    b.claimTears limit ↔
      (∃ db, b = .database db ∧ db.targets.isSome) ∧ ¬ IsBuffer Target.bytes limit := by
  rw [← Database.le_claimBound_iff, Nat.not_le]
  cases b with
  | ledger l => simp [claimTears]
  | database db => simp [claimTears]

namespace Recorder

variable {r r' : Recorder} {able : Bool} {e : RecorderEvent}

/-- A recorder begins if it is able to, and is torn down if it is not. -/
def BeginsIf (able : Bool) (r : Recorder) : Prop :=
  r.canBegin = able ∧ (r.phase = .beginning ∨ (r.phase = .tornDown ↔ able = false))

/-- A recorder that has not begun begins if it can. -/
theorem BeginsIf.fresh (s : RecorderSettings) :
    (fresh s).BeginsIf (Recorder.fresh s).canBegin := ⟨rfl, .inl rfl⟩

/-- A recorder that has begun was able to. -/
theorem BeginsIf.able_of_begun (h : r.BeginsIf able) (hbeginning : r.phase ≠ .beginning)
    (htorn : r.phase ≠ .tornDown) : able = true := by
  obtain hphase | hphase := h.2
  · exact absurd hphase hbeginning
  · exact Bool.eq_true_of_not_eq_false fun hunable => htorn (hphase.2 hunable)

/-- What a recorder was begun with stays as it is. -/
theorem Moves.canBegin_eq (h : r.Moves e r') : r'.canBegin = r.canBegin := by
  cases h with
  | idled _ _ accepted | offered _ accepted => cases accepted <;> rfl
  | _ => rfl

/-- **One move** of a recorder: it begins only if it is able to. -/
theorem BeginsIf.step (h : r.BeginsIf able) (hmoves : r.Moves e r') : r'.BeginsIf able := by
  refine ⟨hmoves.canBegin_eq.trans h.1, .inr ?_⟩
  -- after its first event a recorder has begun or is torn down, and stays so
  cases hmoves with
  | begun _ hbegin => simp [← h.1, hbegin]
  | tornDown _ hbegin => simp [← h.1, hbegin]
  | committed hphase =>
      have hable := h.able_of_begun (by simp [hphase]) (by simp [hphase])
      split <;> simp [hable]
  | gathered hphase | filled hphase | ticked hphase | idled hphase | finished hphase
  | closing hphase | commitFailed hphase | offered hphase | reported hphase =>
      have hable := h.able_of_begun (by simp [hphase]) (by simp [hphase])
      simp [hable, hphase, afterOffer_eq]

end Recorder

namespace System

open Settings Rehearsal

variable {s : Settings}

/-- All that a pipeline of these settings is begun with can be had. -/
structure IsUsable (s : Settings) : Prop where
  targets : Channel.isCapacity (start s).targets.capacity
  outcomes : Channel.isCapacity (start s).outcomes.capacity
  reports : Channel.isCapacity (start s).reports.capacity
  /-- The capacity for reports is a number of 64 bits. -/
  product : channelCapacity s.channels.capacity * 4 ≤ wordBound
  claimed : IsBuffer Target.bytes (start s).loader.batchSize
  /-- A table is asked for no more targets than a number with a sign can tell. -/
  limit : (start s).loader.batchSize ≤ signedWordBound
  gathered : IsBuffer Outcome.bytes (start s).recorder.chunkSize
  flushInterval : 0 < (start s).recorder.flushInterval
  statsInterval : 0 < (start s).collector.interval

/-- The channels of targets and of outcomes can be had up to the bound of all channels. -/
theorem isCapacity_start_iff (s : Settings) :
    Channel.isCapacity (channelCapacity s.channels.capacity) ↔
      s.channels.capacity ≤ 2305843009213693951 := by
  rw [Channel.isCapacity_iff, Channel.bound, channelCapacity]
  omega

/-- The channel of reports can be had up to a fourth of that. -/
theorem isCapacity_reports_iff (s : Settings) :
    Channel.isCapacity (reportCapacity s.channels.capacity) ↔
      s.channels.capacity ≤ 576460752303423487 := by
  rw [Channel.isCapacity_iff, Channel.bound, reportCapacity, channelCapacity]
  omega

/-- A pipeline is rehearsed if there is a channel for its reports. -/
theorem isSome_pipelineRehearsal?_iff {store : ScriptedStore} {cast : Cast}
    {stopAt : Option Nat} :
    (pipelineRehearsal? s store cast stopAt).isSome ↔
      Channel.isCapacity (reportCapacity s.channels.capacity) := by
  have hreports : (start s).reports.capacity = reportCapacity s.channels.capacity := rfl
  rw [pipelineRehearsal?, hreports]
  cases Channel.isCapacity (reportCapacity s.channels.capacity) <;> simp

/-- **Wherever a run leads,** the recorder has begun if it is able to, or is torn down, or
neither yet. -/
theorem recorder_beginsIf_of_run {moves : List Move} {now : System}
    (h : Run step (start s) moves now) :
    now.recorder.BeginsIf (Recorder.fresh s.recorder).canBegin := by
  refine h.invariant
    (P := fun now => now.recorder.BeginsIf (Recorder.fresh s.recorder).canBegin)
    (Recorder.BeginsIf.fresh s.recorder) ?_
  intro before m after hbefore hstep
  rcases (moves_of_step hstep).recorder .empty with ⟨hsame, -⟩ | ⟨e, -, hmoves, -⟩
  · rw [hsame]
    exact hbefore
  · exact hbefore.step hmoves

section Accepted

/-- The buffer of a recorder whose settings are accepted has room for as many as they say. -/
theorem chunkSize_start (haccepted : s.check = []) :
    (start s).recorder.chunkSize = s.recorder.chunkSize :=
  Nat.max_eq_left (check_eq_nil_iff.1 haccepted).chunkSize

/-- A recorder whose settings are accepted is able to begin if there is room for a batch. -/
theorem canBegin_start (haccepted : s.check = []) :
    (start s).recorder.canBegin = decide (s.recorder.chunkSize ≤ Recorder.chunkBound) := by
  have hflush : 0 < (start s).recorder.flushInterval :=
    (check_eq_nil_iff.1 haccepted).flushInterval
  rw [Recorder.canBegin, chunkSize_start haccepted, decide_eq_true hflush, Bool.true_and]

/-- **All that a pipeline is begun with can be had** if three of the accepted settings keep
to their bounds. -/
theorem isUsable_iff (haccepted : s.check = []) :
    IsUsable s ↔ s.channels.capacity ≤ 576460752303423487 ∧
      s.loader.batchSize ≤ Database.claimBound ∧ s.recorder.chunkSize ≤ Recorder.chunkBound := by
  have hsense := check_eq_nil_iff.1 haccepted
  rw [Recorder.le_chunkBound_iff, ← chunkSize_start haccepted]
  constructor
  · intro h
    exact ⟨(isCapacity_reports_iff s).1 h.reports, Database.le_claimBound_iff.2 h.claimed,
      h.gathered⟩
  · rintro ⟨hcapacity, hbatch, hchunk⟩
    have hchannel := (isCapacity_start_iff s).2 (by omega)
    have hproduct := (Channel.isCapacity_iff.1 ((isCapacity_reports_iff s).2 hcapacity)).2
    exact {
      targets := hchannel
      outcomes := hchannel
      reports := (isCapacity_reports_iff s).2 hcapacity
      product := Nat.le_trans hproduct (by decide)
      claimed := Database.le_claimBound_iff.1 hbatch
      limit := Nat.le_trans hbatch (by decide)
      gathered := hchunk
      flushInterval := hsense.flushInterval
      statsInterval := hsense.statsInterval }

/-- **Accepted sizes can be had up to their bounds.**  No time between two ticks is zero.  The
channels of targets and of outcomes can be had up to 2^61 - 1, and then the capacity for
reports is a number of 64 bits; that channel can be had up to 2^59 - 1.  There is a buffer for
the answer to a claim of up to 96076792050570581 targets, which is a number that a table can be
asked for, and one for a batch of up to 115292150460684697 outcomes.  If the capacity of the
channels, the size of a claim and the size of a batch keep to these bounds, all that the
pipeline is begun with can be had, and only then.

Beyond its bound a size is not left unused.  A pipeline without a channel for reports does not
begin; a claim tears its caller down on a database that has a table of targets; and the
recorder, wherever a run leads, has not begun or is torn down.  The collector never is. -/
theorem sizes_are_usable_within_bounds (haccepted : s.check = []) :
    0 < (start s).recorder.flushInterval ∧ 0 < (start s).collector.interval ∧
    (Channel.isCapacity (start s).targets.capacity ↔
      s.channels.capacity ≤ 2305843009213693951) ∧
    (Channel.isCapacity (start s).outcomes.capacity ↔
      s.channels.capacity ≤ 2305843009213693951) ∧
    (s.channels.capacity ≤ 2305843009213693951 →
      channelCapacity s.channels.capacity * 4 ≤ wordBound) ∧
    (Channel.isCapacity (start s).reports.capacity ↔
      s.channels.capacity ≤ 576460752303423487) ∧
    (IsBuffer Target.bytes (start s).loader.batchSize ↔
      s.loader.batchSize ≤ 96076792050570581) ∧
    (s.loader.batchSize ≤ 96076792050570581 →
      (start s).loader.batchSize ≤ signedWordBound) ∧
    (IsBuffer Outcome.bytes (start s).recorder.chunkSize ↔
      s.recorder.chunkSize ≤ 115292150460684697) ∧
    (IsUsable s ↔ s.channels.capacity ≤ 576460752303423487 ∧
      s.loader.batchSize ≤ 96076792050570581 ∧ s.recorder.chunkSize ≤ 115292150460684697) ∧
    (∀ store cast stopAt, (pipelineRehearsal? s store cast stopAt).isSome ↔
      s.channels.capacity ≤ 576460752303423487) ∧
    (∀ b : Backend, b.claimTears (start s).loader.batchSize ↔
      (∃ db, b = .database db ∧ db.targets.isSome) ∧
        96076792050570581 < s.loader.batchSize) ∧
    ∀ moves now, Run step (start s) moves now →
      now.collector.phase ≠ .tornDown ∧
      (now.recorder.phase = .beginning ∨
        (now.recorder.phase = .tornDown ↔ 115292150460684697 < s.recorder.chunkSize)) := by
  have hsense := check_eq_nil_iff.1 haccepted
  have hclaim : IsBuffer Target.bytes (start s).loader.batchSize ↔
      s.loader.batchSize ≤ 96076792050570581 := Database.le_claimBound_iff.symm
  have hchunk : IsBuffer Outcome.bytes (start s).recorder.chunkSize ↔
      s.recorder.chunkSize ≤ 115292150460684697 := by
    rw [chunkSize_start haccepted]
    exact Recorder.le_chunkBound_iff.symm
  refine ⟨hsense.flushInterval, hsense.statsInterval, isCapacity_start_iff s,
    isCapacity_start_iff s, fun hcapacity => ?_, isCapacity_reports_iff s, hclaim,
    fun hbatch => Nat.le_trans hbatch (by decide), hchunk, isUsable_iff haccepted,
    fun store cast stopAt => isSome_pipelineRehearsal?_iff.trans (isCapacity_reports_iff s),
    fun b => ?_, fun moves now hrun => ⟨fun htorn => ?_, ?_⟩⟩
  · rw [channelCapacity, wordBound]
    omega
  · rw [Backend.claimTears_iff, hclaim, Nat.not_le]
  · have hzero := (interval_of_run hrun).2 htorn
    exact absurd hzero (Nat.ne_of_gt hsense.statsInterval)
  · have hbegins := (recorder_beginsIf_of_run hrun).2
    have hable : (Recorder.fresh s.recorder).canBegin = _ := canBegin_start haccepted
    rwa [hable, decide_eq_false_iff_not, Nat.not_le] at hbegins

/-- The greatest sizes that can be had. -/
theorem sizes_are_usable_within_bounds_greatest :
    let s : Settings := {
      recorder := { owner := ⟨List.replicate 16 7, rfl⟩, chunkSize := 115292150460684697 }
      loader := { batchSize := 96076792050570581 }
      channels := { capacity := 576460752303423487 } }
    s.check = [] ∧ IsUsable s ∧
    (∀ store cast stopAt, (pipelineRehearsal? s store cast stopAt).isSome) ∧
    ∀ moves now, Run step (start s) moves now →
      now.collector.phase ≠ .tornDown ∧ now.recorder.phase ≠ .tornDown := by
  intro s
  have haccepted : s.check = [] := by decide
  obtain ⟨-, -, -, -, -, -, -, -, -, husable, hrehearsed, -, hruns⟩ :=
    sizes_are_usable_within_bounds haccepted
  refine ⟨haccepted, husable.2 (by decide), fun store cast stopAt =>
    (hrehearsed store cast stopAt).2 (by decide), fun moves now hrun => ?_⟩
  obtain ⟨hcollector, hbeginning | hrecorder⟩ := hruns moves now hrun
  · exact ⟨hcollector, by simp [hbeginning]⟩
  · exact ⟨hcollector, fun htorn => absurd (hrecorder.1 htorn) (by decide)⟩

/-- Settings that are accepted and that a file can hold, with sizes that cannot be had: there
is no channel for the reports, and no buffer for the answer to a claim nor for a batch. -/
theorem accepted_sizes_are_not_usable :
    let s : Settings := {
      recorder := { owner := ⟨List.replicate 16 7, rfl⟩, chunkSize := 115292150460684698 }
      loader := { batchSize := 96076792050570582 }
      channels := { capacity := 576460752303423488 } }
    s.check = [] ∧
    s.recorder.chunkSize ≤ signedWordBound ∧ s.loader.batchSize ≤ signedWordBound ∧
    s.channels.capacity ≤ signedWordBound ∧ ¬ IsUsable s ∧
    ¬ Channel.isCapacity (start s).reports.capacity ∧
    ¬ IsBuffer Target.bytes (start s).loader.batchSize ∧
    ¬ IsBuffer Outcome.bytes (start s).recorder.chunkSize := by
  intro s
  have hreports : ¬ Channel.isCapacity (start s).reports.capacity := by decide
  exact ⟨by decide, by decide, by decide, by decide, fun h => hreports h.reports, hreports,
    by decide, by decide⟩

end Accepted

end System

end PeerWatch
