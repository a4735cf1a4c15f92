import PeerWatch.Proofs.Pipeline.Endings

/-!
# What the reports add up to

What a stage counts is with it, on its way to the collector, or in the
collector's totals; an offer or a last report moves it along and changes
nothing of the sum.  A report is only lost when the collector could not begin.
So the totals, the reports under way and what is still to be reported are
together what the stages have done.

* `Totals.sum` — reports added up;
* `System.underway`, `Chronicle.tally` — what was counted, where it is, and what
  was done;
* `System.tally_step`, `System.tally_of_run` — they are the same.
-/

namespace PeerWatch

namespace Totals

instance : Add Totals where
  add a b := ⟨a.claimed + b.claimed, a.probed + b.probed, a.succeeded + b.succeeded,
    a.failed + b.failed, a.unknown + b.unknown, a.recorded + b.recorded, a.batches + b.batches⟩

theorem add_eq (a b : Totals) : a + b = ⟨a.claimed + b.claimed, a.probed + b.probed,
    a.succeeded + b.succeeded, a.failed + b.failed, a.unknown + b.unknown,
    a.recorded + b.recorded, a.batches + b.batches⟩ := rfl

instance : Std.Commutative (α := Totals) (· + ·) where
  comm a b := by simp only [add_eq, Nat.add_comm]

instance : Std.Associative (α := Totals) (· + ·) where
  assoc a b c := by simp only [add_eq, Nat.add_assoc]

theorem zero_add (a : Totals) : .zero + a = a := by simp [add_eq, zero]

theorem add_zero (a : Totals) : a + .zero = a := rfl

end Totals

/-- What a report adds to the totals. -/
def Report.totals (r : Report) : Totals := Totals.zero.apply r

namespace Report

/-- Claims reported together count as those reported one by one. -/
theorem totals_claimed_add (n k : Nat) :
    (claimed (n + k)).totals = (claimed n).totals + (claimed k).totals := by
  simp [totals, Totals.apply, Totals.add_eq, Totals.zero]

/-- One more outcome adds what it adds alone. -/
theorem totals_probed_observe (c : Counters) (o : Outcome) :
    (probed (c.observeOutcome o)).totals =
      (probed c).totals + (probed (Counters.zero.observeOutcome o)).totals := by
  unfold Counters.observeOutcome
  cases o.failure.map (·.cls) <;>
    simp [totals, Totals.apply, Totals.add_eq, Totals.zero, Counters.observe, Counters.zero]

/-- One more batch in a report counts as a report of it. -/
theorem totals_committed_add (outcomes batches more : Nat) :
    (committed (outcomes + more) (batches + 1)).totals =
      (committed outcomes batches).totals + (committed more 1).totals := by
  simp [totals, Totals.apply, Totals.add_eq, Totals.zero]

/-- A report of nothing adds nothing. -/
theorem totals_of_isNothing {r : Report} (h : r.isNothing) : r.totals = .zero := by
  cases r with
  | claimed n =>
      obtain rfl : n = 0 := by simpa [isNothing] using h
      rfl
  | probed c =>
      obtain rfl : c = .zero := by simpa [isNothing] using h
      rfl
  | committed outcomes batches =>
      obtain ⟨rfl, rfl⟩ : outcomes = 0 ∧ batches = 0 := by simpa [isNothing] using h
      rfl

end Report

namespace Report

/-- What is sent when a report is to be made: nothing, if there is nothing to report. -/
def toSend (r : Report) : List Report := if r.isNothing then [] else [r]

end Report

namespace Totals

/-- A report is applied by adding its totals. -/
theorem apply_eq (t : Totals) (r : Report) : t.apply r = t + r.totals := by
  cases r <;> simp [apply, Report.totals, add_eq, zero]

/-- Reports added up. -/
def sum (reports : List Report) : Totals := Totals.zero.applyAll reports

theorem sum_nil : sum [] = .zero := rfl

/-- Reports are applied by adding their sum. -/
theorem applyAll_eq (t : Totals) (reports : List Report) : t.applyAll reports = t + sum reports := by
  unfold sum
  induction reports generalizing t with
  | nil => rfl
  | cons r rest ih =>
      show (t.apply r).applyAll rest = t + (zero.apply r).applyAll rest
      rw [ih, ih (zero.apply r), apply_eq, apply_eq, zero_add]
      ac_rfl

theorem sum_cons (r : Report) (reports : List Report) :
    sum (r :: reports) = r.totals + sum reports := by
  show (zero.apply r).applyAll reports = _
  rw [applyAll_eq, apply_eq, zero_add]

theorem sum_append (reports more : List Report) :
    sum (reports ++ more) = sum reports + sum more := by
  unfold sum applyAll
  rw [List.foldl_append]
  exact applyAll_eq _ more

theorem sum_snoc (reports : List Report) (r : Report) :
    sum (reports ++ [r]) = sum reports + r.totals := by
  rw [sum_append, sum_cons]
  rfl

/-- A report that says nothing is not sent, and nothing is missing. -/
theorem sum_toSend (r : Report) : sum r.toSend = r.totals := by
  unfold Report.toSend
  split
  · next hnothing => exact (Report.totals_of_isNothing hnothing).symm
  · rfl

/-- Where nobody has anything to report, it adds up to nothing. -/
theorem sum_map_eq_zero {α : Type} {items : List α} {f : α → Report}
    (h : ∀ x ∈ items, (f x).totals = .zero) : sum (items.map f) = .zero := by
  induction items with
  | nil => rfl
  | cons x rest ih =>
      rw [List.map_cons, sum_cons, h x List.mem_cons_self,
        ih fun x hx => h x (List.mem_cons_of_mem _ hx)]
      rfl

/-- Of those who report one goes on: the others have what they had to report. -/
theorem exists_sum_map_set {α : Type} {items : List α} {i : Nat} {x : α} (f : α → Report)
    (h : items[i]? = some x) :
    ∃ others, sum (items.map f) = others + (f x).totals ∧
      ∀ x', sum ((items.set i x').map f) = others + (f x').totals := by
  induction items generalizing i with
  | nil => cases h
  | cons first rest ih =>
      cases i with
      | zero =>
          obtain rfl := Option.some.inj h
          refine ⟨sum (rest.map f), ?_, ?_⟩
          · rw [List.map_cons, sum_cons]
            ac_rfl
          · intro x'
            rw [List.set_cons_zero, List.map_cons, sum_cons]
            ac_rfl
      | succ i =>
          obtain ⟨others, hsum, hset⟩ := ih h
          refine ⟨(f first).totals + others, ?_, ?_⟩
          · rw [List.map_cons, sum_cons, hsum]
            ac_rfl
          · intro x'
            rw [List.set_cons_succ, List.map_cons, sum_cons, hset]
            ac_rfl

end Totals

/-- What a loader has still to report after an event. -/
def Loader.pendingAfter (l : Loader) : LoaderEvent → Totals
  | .claimed batch => l.pending.totals + (Report.claimed batch.length).totals
  | .offered accepted => if accepted then .zero else l.pending.totals
  | .reported _ => .zero
  | _ => l.pending.totals

theorem Loader.Moves.totals {l l' : Loader} {e : LoaderEvent} (h : l.Moves e l') :
    l'.pending.totals = l.pendingAfter e := by
  cases h with
  | claimed => exact Report.totals_claimed_add _ _
  | @offered batch hphase accepted =>
      rw [Loader.pending, (Loader.handing_eq _ batch).2.2]
      cases accepted <;> rfl
  | handed hphase hlooked =>
      rw [Loader.pending, (Loader.handing_eq l _).2.2]
      rfl
  | _ => rfl

/-- A loader ends with nothing to report. -/
theorem Loader.Moves.cleared {l l' : Loader} {e : LoaderEvent} (h : l.Moves e l')
    (hended : l'.phase = .ended) : l'.pending.totals = .zero := by
  cases h with
  | reported hphase accepted => rfl
  | looked hwatchful hlooked =>
      have hended : l.phase = .ended := hended
      simp [isWatchful, hended] at hwatchful
  | @offered batch hphase accepted => cases batch <;> cases hended
  | @handed t rest hphase hlooked => cases rest <;> cases hended
  | _ => cases hended

/-- What a worker has still to report after an event. -/
def Worker.pendingAfter (w : Worker) : WorkerEvent → Totals
  | .probed o => w.pending.totals + (Report.probed (Counters.zero.observeOutcome o)).totals
  | .offered accepted => if accepted then .zero else w.pending.totals
  | .reported _ => .zero
  | _ => w.pending.totals

theorem Worker.Moves.totals {w w' : Worker} {e : WorkerEvent} (h : w.Moves e w') :
    w'.pending.totals = w.pendingAfter e := by
  cases h with
  | probed => exact Report.totals_probed_observe _ _
  | offered hphase accepted => cases accepted <;> rfl
  | _ => rfl

/-- A worker ends with nothing to report. -/
theorem Worker.Moves.cleared {w w' : Worker} {e : WorkerEvent} (h : w.Moves e w')
    (hended : w'.phase = .ended) : w'.pending.totals = .zero := by
  cases h with
  | reported hphase accepted => rfl
  | emitted hphase =>
      by_cases hdue : reportEvery ≤ w.unreported.probed
      · simp [hdue] at hended
      · simp [hdue] at hended
  | _ => cases hended

/-- What a recorder has still to report after an event. -/
def Recorder.pendingAfter (r : Recorder) : RecorderEvent → Totals
  | .committed => r.pending.totals + (Report.committed r.buffer.length 1).totals
  | .idled accepted | .offered accepted => if accepted then .zero else r.pending.totals
  | .reported _ => .zero
  | _ => r.pending.totals

theorem Recorder.Moves.totals {r r' : Recorder} {e : RecorderEvent} (h : r.Moves e r') :
    r'.pending.totals = r.pendingAfter e := by
  cases h with
  | committed => exact Report.totals_committed_add _ _ _
  | idled hphase hbuffer accepted => cases accepted <;> rfl
  | offered hphase accepted => cases accepted <;> rfl
  | _ => rfl

namespace Counters

/-- Outcomes counted by how they ended. -/
def ofOutcomes (outcomes : List Outcome) : Counters := outcomes.foldl observeOutcome .zero

/-- One more outcome is a success or a failure. -/
theorem observeOutcome_eq (c : Counters) (o : Outcome) :
    (c.observeOutcome o).probed = c.probed + 1 ∧
      (c.observeOutcome o).succeeded = c.succeeded + (if o.isSuccess then 1 else 0) ∧
      (c.observeOutcome o).failed = c.failed + (if o.isSuccess then 0 else 1) ∧
      (c.unknown ≤ c.failed → (c.observeOutcome o).unknown ≤ (c.observeOutcome o).failed) := by
  unfold observeOutcome Outcome.isSuccess
  cases o.failure with
  | none => exact ⟨rfl, rfl, rfl, id⟩
  | some failure =>
      refine ⟨rfl, rfl, rfl, ?_⟩
      intro hle
      show c.unknown + (if failure.cls = .unknown then 1 else 0) ≤ c.failed + 1
      split <;> omega

/-- Each outcome is counted, as a success or as a failure, and the unknown ones are
among the failures. -/
theorem observeAll_eq (c : Counters) (outcomes : List Outcome) :
    (outcomes.foldl observeOutcome c).probed = c.probed + outcomes.length ∧
      (outcomes.foldl observeOutcome c).succeeded =
        c.succeeded + outcomes.countP (·.isSuccess) ∧
      (outcomes.foldl observeOutcome c).failed =
        c.failed + outcomes.countP (¬ ·.isSuccess) ∧
      (c.unknown ≤ c.failed → (outcomes.foldl observeOutcome c).unknown ≤
        (outcomes.foldl observeOutcome c).failed) := by
  induction outcomes generalizing c with
  | nil => exact ⟨rfl, rfl, rfl, id⟩
  | cons o rest ih =>
      obtain ⟨hprobed, hsucceeded, hfailed, hunknown⟩ := c.observeOutcome_eq o
      obtain ⟨hprobed', hsucceeded', hfailed', hunknown'⟩ := ih (c.observeOutcome o)
      refine ⟨?_, ?_, ?_, fun hle => hunknown' (hunknown hle)⟩
      · rw [List.foldl_cons, hprobed', hprobed, List.length_cons]
        omega
      · rw [List.foldl_cons, hsucceeded', hsucceeded, List.countP_cons]
        omega
      · rw [List.foldl_cons, hfailed', hfailed, List.countP_cons]
        cases o.isSuccess with
        | true => exact rfl
        | false => exact Nat.add_right_comm c.failed 1 _

/-- Outcomes counted are as many as there are, some of them successes. -/
theorem ofOutcomes_eq (outcomes : List Outcome) :
    (ofOutcomes outcomes).probed = outcomes.length ∧
      (ofOutcomes outcomes).probed =
        (ofOutcomes outcomes).succeeded + (ofOutcomes outcomes).failed ∧
      (ofOutcomes outcomes).unknown ≤ (ofOutcomes outcomes).failed := by
  obtain ⟨hprobed, hsucceeded, hfailed, hunknown⟩ := zero.observeAll_eq outcomes
  refine ⟨hprobed.trans (Nat.zero_add _), ?_, hunknown (Nat.le_refl _)⟩
  have hsplit := outcomes.length_eq_countP_add_countP (·.isSuccess)
  unfold ofOutcomes
  rw [hprobed, hsucceeded, hfailed]
  simp only [zero, Nat.zero_add]
  exact hsplit

end Counters

/-- One more outcome adds what it adds alone. -/
theorem Report.totals_ofOutcomes_snoc (outcomes : List Outcome) (o : Outcome) :
    (probed (.ofOutcomes (outcomes ++ [o]))).totals =
      (probed (.ofOutcomes outcomes)).totals +
        (probed (Counters.zero.observeOutcome o)).totals := by
  unfold Counters.ofOutcomes
  rw [List.foldl_append]
  exact totals_probed_observe _ o

/-- What the parts of a pipeline have done, counted. -/
def Chronicle.tally (log : Chronicle) : Totals :=
  (Report.claimed log.loader.claimed.length).totals +
    (Report.probed (.ofOutcomes (log.probed.map (·.2)))).totals +
    (Report.committed log.recorder.committed.flatten.length log.recorder.committed.length).totals

/-- The tally of a chronicle, count by count. -/
theorem Chronicle.tally_eq (log : Chronicle) :
    log.tally =
      let counters := Counters.ofOutcomes (log.probed.map (·.2))
      ⟨log.loader.claimed.length, counters.probed, counters.succeeded, counters.failed,
        counters.unknown, log.recorder.committed.flatten.length,
        log.recorder.committed.length⟩ := by
  simp [tally, Report.totals, Totals.apply, Totals.add_eq, Totals.zero]

namespace System

variable {s s' : System} {m : Move} {log : Chronicle}

/-- What was counted: the totals, the reports under way, and what each stage has
still to report. -/
def underway (s : System) : Totals :=
  s.collector.totals + Totals.sum s.reports.queue + s.loader.pending.totals +
    Totals.sum (s.workers.map (·.pending)) + s.recorder.pending.totals

section Reports

variable {reports reports' : Channel Report} {pending : Report} {accepted : Bool}

/-- An offer moves what is pending into the channel, or leaves it. -/
theorem sum_offerReport (h : offerReport reports pending accepted = some reports') :
    Totals.sum reports'.queue + (if accepted then .zero else pending.totals) =
      Totals.sum reports.queue + pending.totals := by
  unfold offerReport at h
  split at h
  · next hskip =>
      obtain rfl := Option.some.inj h
      cases accepted with
      | false => rfl
      | true =>
          have hnothing : pending.isNothing := by simpa using hskip
          rw [Report.totals_of_isNothing hnothing]
          rfl
  · next hskip =>
      obtain ⟨_, rfl⟩ := Channel.push?_eq_some_iff.1 h
      obtain ⟨_, haccepted⟩ : pending.isNothing = false ∧ accepted = true := by simpa using hskip
      rw [Totals.sum_snoc, if_pos haccepted]
      rfl

/-- A last report moves what is pending into the channel, as long as it is open. -/
theorem sum_lastReport (h : lastReport reports pending accepted = some reports')
    (hopen : reports.isOpen) :
    Totals.sum reports'.queue = Totals.sum reports.queue + pending.totals := by
  unfold lastReport at h
  split at h
  · next hnothing =>
      obtain rfl := Option.some.inj h
      rw [Report.totals_of_isNothing hnothing]
      rfl
  · split at h
    · obtain ⟨_, rfl⟩ := Channel.push?_eq_some_iff.1 h
      exact Totals.sum_snoc _ _
    · cases h

/-- What an offer does to the channel. -/
theorem offerReport_eq (h : offerReport reports pending accepted = some reports') :
    reports'.queue = reports.queue ++ (if accepted then pending.toSend else []) ∧
      reports'.isOpen = reports.isOpen := by
  unfold offerReport at h
  split at h
  · next hskip =>
      obtain rfl := Option.some.inj h
      cases accepted with
      | false => exact ⟨(List.append_nil _).symm, rfl⟩
      | true =>
          have hnothing : pending.isNothing := by simpa using hskip
          rw [if_pos rfl, Report.toSend, if_pos hnothing, List.append_nil]
          exact ⟨rfl, rfl⟩
  · next hskip =>
      obtain ⟨_, rfl⟩ := Channel.push?_eq_some_iff.1 h
      obtain ⟨hsomething, haccepted⟩ : pending.isNothing = false ∧ accepted = true := by
        simpa using hskip
      rw [if_pos haccepted, Report.toSend, hsomething]
      exact ⟨rfl, rfl⟩

/-- What a last report does to the channel. -/
theorem lastReport_eq (h : lastReport reports pending accepted = some reports') :
    reports'.queue = reports.queue ++ (if accepted then pending.toSend else []) ∧
      reports'.isOpen = reports.isOpen ∧
      (reports.isOpen → accepted = false → pending.toSend = []) := by
  unfold lastReport at h
  split at h
  · next hnothing =>
      obtain rfl := Option.some.inj h
      have hnone : pending.toSend = [] := by rw [Report.toSend, if_pos hnothing]
      rw [hnone, ite_self, List.append_nil]
      exact ⟨rfl, rfl, fun _ _ => rfl⟩
  · next hsomething =>
      split at h
      · next haccepted =>
          obtain ⟨_, rfl⟩ := Channel.push?_eq_some_iff.1 h
          rw [if_pos haccepted, Report.toSend, if_neg hsomething]
          exact ⟨rfl, rfl, fun _ hnot => by simp [haccepted] at hnot⟩
      · next haccepted =>
          split at h
          · cases h
          · next hclosed =>
              obtain rfl := Option.some.inj h
              rw [if_neg haccepted, List.append_nil]
              exact ⟨rfl, rfl, fun hopen => absurd hopen hclosed⟩

end Reports

/-- The collector is gone only when it could not begin, or when everybody who
reports to it is gone; so as long as somebody has something to report, it is there. -/
theorem Orderly.reports_open (h : s.Orderly) (hbegan : s.collector.phase ≠ .tornDown)
    (hthere : ¬ (s.loader.isGone ∧ s.workersGone ∧ s.recorder.isGone)) : s.reports.isOpen := by
  cases hopen : s.reports.isOpen with
  | true => rfl
  | false =>
      have hgone := h.reports.gone hopen
      have hended : s.collector.phase = .ended := by simpa [Collector.isGone, hbegan] using hgone
      exact absurd (h.collector hended) hthere

section Underway

variable {d : Totals} {reports : Channel Report}

/-- What the loader has still to report is under way, wherever it is. -/
theorem underway_loader {l : Loader} (h : Totals.sum reports.queue + l.pending.totals =
      Totals.sum s.reports.queue + s.loader.pending.totals + d) :
    { s with loader := l, reports := reports }.underway = s.underway + d := by
  show s.collector.totals + Totals.sum reports.queue + l.pending.totals +
    Totals.sum (s.workers.map (·.pending)) + s.recorder.pending.totals = _
  calc
    _ = s.collector.totals + Totals.sum (s.workers.map (·.pending)) + s.recorder.pending.totals +
        (Totals.sum reports.queue + l.pending.totals) := by ac_rfl
    _ = s.underway + d := by
        rw [h, underway]
        ac_rfl

/-- What the recorder has still to report is under way, wherever it is. -/
theorem underway_recorder {r : Recorder} (h : Totals.sum reports.queue + r.pending.totals =
      Totals.sum s.reports.queue + s.recorder.pending.totals + d) :
    { s with recorder := r, reports := reports }.underway = s.underway + d := by
  show s.collector.totals + Totals.sum reports.queue + s.loader.pending.totals +
    Totals.sum (s.workers.map (·.pending)) + r.pending.totals = _
  calc
    _ = s.collector.totals + s.loader.pending.totals + Totals.sum (s.workers.map (·.pending)) +
        (Totals.sum reports.queue + r.pending.totals) := by ac_rfl
    _ = s.underway + d := by
        rw [h, underway]
        ac_rfl

/-- What a worker has still to report is under way, wherever it is. -/
theorem underway_worker {i : Nat} {w w' : Worker} (hw : s.workers[i]? = some w)
    (h : Totals.sum reports.queue + w'.pending.totals =
      Totals.sum s.reports.queue + w.pending.totals + d) :
    { s with workers := s.workers.set i w', reports := reports }.underway = s.underway + d := by
  obtain ⟨others, hsum, hset⟩ := Totals.exists_sum_map_set (·.pending) hw
  show s.collector.totals + Totals.sum reports.queue + s.loader.pending.totals +
    Totals.sum ((s.workers.set i w').map (·.pending)) + s.recorder.pending.totals = _
  rw [hset]
  calc
    _ = s.collector.totals + s.loader.pending.totals + others + s.recorder.pending.totals +
        (Totals.sum reports.queue + w'.pending.totals) := by ac_rfl
    _ = s.underway + d := by
        rw [h, underway, hsum]
        ac_rfl

end Underway

section Tally

/-- A claim counts its targets. -/
theorem tally_claimed (log : Chronicle) (s : System) (batch : List Target) :
    (log.note s (.loader (.claimed batch))).tally =
      log.tally + (Report.claimed batch.length).totals := by
  show (Report.claimed (log.loader.note s.loader (.claimed batch)).claimed.length).totals +
    _ + _ = _
  rw [Loader.claimed_claimed, List.length_append, Report.totals_claimed_add, Chronicle.tally]
  ac_rfl

/-- A probe counts its outcome. -/
theorem tally_probed (log : Chronicle) {i : Nat} {w : Worker} (hw : s.workers[i]? = some w)
    (o : Outcome) :
    (log.note s (.worker i (.probed o))).tally =
      log.tally + (Report.probed (Counters.zero.observeOutcome o)).totals := by
  rw [Chronicle.note_worker hw]
  show _ + (Report.probed (.ofOutcomes ((log.probed ++ [(i, o)]).map (·.2)))).totals + _ = _
  rw [List.map_append, List.map_singleton, Report.totals_ofOutcomes_snoc, Chronicle.tally]
  ac_rfl

/-- A commit counts the buffer, and one batch. -/
theorem tally_committed (log : Chronicle) (s : System) :
    (log.note s (.recorder .committed)).tally =
      log.tally + (Report.committed s.recorder.buffer.length 1).totals := by
  show _ + (Report.committed (log.recorder.note s.recorder .committed).committed.flatten.length
    (log.recorder.note s.recorder .committed).committed.length).totals = _
  rw [Recorder.committed_committed, List.flatten_append, List.flatten_singleton,
    List.length_append, List.length_append, List.length_singleton, Report.totals_committed_add,
    Chronicle.tally]
  ac_rfl

/-- A commit that fails counts nothing. -/
theorem tally_commitFailed (log : Chronicle) (s : System) (e : StoreError) :
    (log.note s (.recorder (.commitFailed e))).tally = log.tally := by
  show _ + (Report.committed (log.recorder.note s.recorder (.commitFailed e)).committed.flatten.length
    (log.recorder.note s.recorder (.commitFailed e)).committed.length).totals = _
  rw [Recorder.committed_commitFailed]
  rfl

end Tally

section Steps

/-- **One move** changes what is under way by what it does. -/
theorem tally_step (h : s.underway = log.tally) (ho : s.Orderly)
    (hbegan : s'.collector.phase ≠ .tornDown) (hmoves : s.Moves m s') :
    s'.underway = (log.note s m).tally := by
  cases hmoves with
  | looked hl | signalled hl | claimFailed hl | rested hl | handed hl | loaderTurnedAway hl
  | loaderTorn hl =>
      refine (underway_loader (d := .zero) ?_).trans h
      rw [hl.totals]
      rfl
  | claimed hl =>
      rw [tally_claimed, ← h]
      refine underway_loader ?_
      rw [hl.totals, Loader.pendingAfter]
      ac_rfl
  | loaderOffered hl hreports =>
      refine (underway_loader (d := .zero) ?_).trans h
      rw [hl.totals]
      exact sum_offerReport hreports
  | loaderReported hl hreports =>
      have hopen := ho.reports_open hbegan fun hgone => by simp [hl.not_gone] at hgone
      refine (underway_loader (d := .zero) ?_).trans h
      rw [hl.totals]
      exact sum_lastReport hreports hopen
  | took hw hworker | workerFinished hw hworker | workerTorn hw hworker | emitted hw hworker
  | workerTurnedAway hw hworker =>
      rw [Chronicle.note_worker hw]
      refine (underway_worker (d := .zero) hw ?_).trans h
      rw [hworker.totals]
      rfl
  | probed hw hworker =>
      rw [tally_probed log hw, ← h]
      refine underway_worker hw ?_
      rw [hworker.totals, Worker.pendingAfter]
      ac_rfl
  | workerOffered hw hworker hreports =>
      rw [Chronicle.note_worker hw]
      refine (underway_worker (d := .zero) hw ?_).trans h
      rw [hworker.totals]
      exact sum_offerReport hreports
  | workerReported hw hworker hreports =>
      have hopen := ho.reports_open hbegan fun hgone => by
        simp [not_workersGone hw hworker] at hgone
      rw [Chronicle.note_worker hw]
      refine (underway_worker (d := .zero) hw ?_).trans h
      rw [hworker.totals]
      exact sum_lastReport hreports hopen
  | recorderBegun hr | received hr | ticked hr | recorderFinished hr | recorderTorn hr =>
      refine (underway_recorder (d := .zero) ?_).trans h
      rw [hr.totals]
      rfl
  | commitFailed hr =>
      rw [tally_commitFailed]
      refine (underway_recorder (d := .zero) ?_).trans h
      rw [hr.totals]
      rfl
  | committed hr =>
      rw [tally_committed, ← h]
      refine underway_recorder ?_
      rw [hr.totals, Recorder.pendingAfter]
      ac_rfl
  | idled hr hreports | recorderOffered hr hreports =>
      refine (underway_recorder (d := .zero) ?_).trans h
      rw [hr.totals]
      exact sum_offerReport hreports
  | recorderReported hr hreports =>
      have hopen := ho.reports_open hbegan fun hgone => by simp [hr.not_gone] at hgone
      refine (underway_recorder (d := .zero) ?_).trans h
      rw [hr.totals]
      exact sum_lastReport hreports hopen
  | collectorBegun hc =>
      cases hc
      exact h
  | @collectorTook _ report rest hc hqueue =>
      cases hc
      rw [underway, hqueue, Totals.sum_cons] at h
      show s.collector.totals.apply report + Totals.sum rest + _ + _ + _ = log.tally
      rw [← h, Totals.apply_eq]
      ac_rfl
  | collectorFinished hc hfinished =>
      have hempty : s.reports.queue = [] := List.isEmpty_iff.1 (Bool.and_eq_true_iff.1 hfinished).2
      cases hc
      rw [underway, hempty] at h
      exact h
  | collectorTorn hc =>
      cases hc
      exact absurd rfl hbegan
  | poolNoted | poolEnded | stageNoted | published | alarmed | concluded | closed | asked
  | gaveSignal => exact h

end Steps

section Runs

variable {settings : Settings} {moves : List Move}

/-- At the start nothing is under way, and nothing was done. -/
theorem tally_start (settings : Settings) : (start settings).underway = Chronicle.empty.tally := by
  have hpending : Totals.sum ((start settings).workers.map (·.pending)) = .zero := by
    refine Totals.sum_map_eq_zero ?_
    intro w hw
    obtain rfl := List.eq_of_mem_replicate hw
    rfl
  rw [underway, hpending]
  rfl

/-- Only a collector without a time between two summaries is torn down. -/
theorem interval_of_run (h : Run step (start settings) moves s) :
    s.collector.interval = settings.observability.statsInterval ∧
      (s.collector.phase = .tornDown → settings.observability.statsInterval = 0) := by
  refine h.invariant (P := fun s =>
    s.collector.interval = settings.observability.statsInterval ∧
      (s.collector.phase = .tornDown → settings.observability.statsInterval = 0))
    ⟨rfl, fun h => by cases h⟩ ?_
  intro s m s' hnow hstep
  rcases (moves_of_step hstep).collector with hsame | ⟨e, _, hmoves⟩
  · rw [hsame]
    exact hnow
  · obtain ⟨hinterval, htorn⟩ := hnow
    generalize s'.collector = c' at hmoves
    cases hmoves with
    | tornDown hphase hzero => exact ⟨hinterval, fun _ => hinterval.symm.trans hzero⟩
    | begun | finished => exact ⟨hinterval, (by cases ·)⟩
    | took hphase r => exact ⟨hinterval, htorn⟩

/-- **Wherever a run leads,** what is under way is what was done, if the collector
can begin. -/
theorem tally_of_run (hinterval : 0 < settings.observability.statsInterval)
    (h : Run chronicled (start settings, .empty) moves (s, log)) : s.underway = log.tally := by
  have hkept : s.Orderly ∧ (s.collector.phase ≠ .tornDown → s.underway = log.tally) := by
    refine h.invariant (P := fun now => now.1.Orderly ∧
      (now.1.collector.phase ≠ .tornDown → now.1.underway = now.2.tally))
      ⟨orderly_start settings, fun _ => tally_start settings⟩ ?_
    intro now m next hnow hstep
    obtain ⟨hstep, hlog⟩ := noting_eq_some.1 hstep
    have hmoves := moves_of_step hstep
    refine ⟨hnow.1.step hmoves, fun hbegan => ?_⟩
    have hbefore : now.1.collector.phase ≠ .tornDown := by
      intro htorn
      rw [hmoves.collector_gone (by simp [Collector.isGone, htorn])] at hbegan
      exact hbegan htorn
    rw [hlog]
    exact tally_step (hnow.2 hbefore) hnow.1 hbegan hmoves
  refine hkept.2 fun htorn => ?_
  rw [(interval_of_run h.unnoted).2 htorn] at hinterval
  cases hinterval

/-- A part of the pipeline that has come to its end has nothing more to report. -/
structure Cleared (s : System) : Prop where
  loader : s.loader.phase = .ended → s.loader.pending.totals = .zero
  workers : ∀ w ∈ s.workers, w.phase = .ended → w.pending.totals = .zero
  recorder : s.recorder.phase = .ended → s.recorder.pending.totals = .zero

/-- Who ends in a move has reported all it counted. -/
theorem Cleared.step (h : s.Cleared) (hmoves : s.Moves m s') : s'.Cleared where
  loader hended := by
    rcases hmoves.loader .empty with ⟨hsame, _⟩ | ⟨e, _, hloader, _⟩
    · rw [hsame] at hended ⊢
      exact h.loader hended
    · exact hloader.cleared hended
  workers v hv hended := by
    rcases hmoves.workers with hsame | ⟨i, w, w', e, _, _, hworker, hworkers⟩
    · rw [hsame] at hv
      exact h.workers v hv hended
    · rw [hworkers] at hv
      rcases List.mem_or_eq_of_mem_set hv with hv | rfl
      · exact h.workers v hv hended
      · exact hworker.cleared hended
  recorder hended := by
    rcases hmoves.recorder .empty with ⟨hsame, _⟩ | ⟨e, _, hrecorder, _⟩
    · rw [hsame] at hended ⊢
      exact h.recorder hended
    · obtain ⟨houtcomes, hbatches⟩ := hrecorder.cleared hended
      rw [Recorder.pending, houtcomes, hbatches]
      rfl

/-- In every run, whoever has ended has reported all it counted. -/
theorem cleared_of_run (h : Run step (start settings) moves s) : s.Cleared := by
  refine h.invariant (P := Cleared) ⟨(by cases ·), ?_, (by cases ·)⟩
    fun _ _ _ hcleared hstep => hcleared.step (moves_of_step hstep)
  intro w hw hended
  obtain rfl := List.eq_of_mem_replicate hw
  cases hended

/-- **In the end** the totals are what was done. -/
theorem totals_of_run (hinterval : 0 < settings.observability.statsInterval)
    (h : Run chronicled (start settings, .empty) moves (s, log)) (hgone : s.collector.isGone)
    (hloader : s.loader.phase = .ended) (hworkers : ∀ w ∈ s.workers, w.phase = .ended)
    (hrecorder : s.recorder.phase = .ended) : s.collector.totals = log.tally := by
  have hcleared := cleared_of_run h.unnoted
  have hempty := (orderly_of_run h.unnoted).reports.queue hgone
  have hpending : Totals.sum (s.workers.map (·.pending)) = .zero := by
    refine Totals.sum_map_eq_zero ?_
    intro w hw
    exact hcleared.workers w hw (hworkers w hw)
  rw [← tally_of_run hinterval h, underway, hempty, hcleared.loader hloader, hpending,
    hcleared.recorder hrecorder]
  rfl

end Runs

end System

end PeerWatch
