import PeerWatch.Proofs.Pipeline.Tallies

/-!
# No count is lost on its way

Whoever counts something keeps the count until the channel of reports takes it.  An
offer that is turned down changes nothing, and the next one carries what was counted
since as well; an offer that is accepted leaves nothing behind.  So as long as somebody
takes reports, what was counted is in the totals, in the channel, or with who counted
it, at every moment; and each of these is a sum of outcomes, of which every one was a
success or a failure.

The reporters here count and report in any order, any number of them over a channel of
any size.

* `Observation`, `Totals.observed` — what is counted, and what it comes to;
* `Reporting`, `Reporting.step` — reporters, a channel and totals;
* `Reporting.Conserves`, `Reporting.Conserves.step` — where the counts are;
* `Reporting.counts_are_conserved` — none is lost.
-/

namespace PeerWatch

/-- Something that a reporter counts. -/
inductive Observation where
  | claimed (targets : Nat)
  | probed (o : Outcome)
  | committed (outcomes batches : Nat)
deriving DecidableEq

namespace Observation

/-- The targets that were claimed. -/
def targets : Observation → Nat
  | .claimed n => n
  | _ => 0

/-- The outcome of a probe. -/
def outcome? : Observation → Option Outcome
  | .probed o => some o
  | _ => none

/-- The outcomes that were committed. -/
def recorded : Observation → Nat
  | .committed outcomes _ => outcomes
  | _ => 0

/-- The batches that were committed. -/
def batches : Observation → Nat
  | .committed _ batches => batches
  | _ => 0

/-- How much there is of something in all that was observed. -/
def total (amount : Observation → Nat) (seen : List Observation) : Nat :=
  seen.foldr (fun x rest => amount x + rest) 0

/-- Amounts add up over what was seen. -/
theorem total_append (amount : Observation → Nat) (seen more : List Observation) :
    total amount (seen ++ more) = total amount seen + total amount more := by
  induction seen with
  | nil => exact (Nat.zero_add _).symm
  | cons x rest ih =>
      show amount x + total amount (rest ++ more) = amount x + total amount rest + _
      rw [ih, Nat.add_assoc]

end Observation

/-- Whether an outcome is a failure of unknown class. -/
def Outcome.isUnknown (o : Outcome) : Bool := o.failure.any (·.cls = .unknown)

/-- What was observed, counted at once. -/
def Totals.observed (seen : List Observation) : Totals where
  claimed := Observation.total (·.targets) seen
  probed := (seen.filterMap (·.outcome?)).length
  succeeded := (seen.filterMap (·.outcome?)).countP (·.isSuccess)
  failed := (seen.filterMap (·.outcome?)).countP (¬ ·.isSuccess)
  unknown := (seen.filterMap (·.outcome?)).countP (·.isUnknown)
  recorded := Observation.total (·.recorded) seen
  batches := Observation.total (·.batches) seen

/-- Totals add up over what was seen. -/
theorem Totals.observed_append (seen more : List Observation) :
    observed (seen ++ more) = observed seen + observed more := by
  simp [observed, add_eq, Observation.total_append]

/-- One outcome counts for itself. -/
theorem Totals.observed_probed (o : Outcome) :
    observed [.probed o] = (Report.probed (Counters.zero.observeOutcome o)).totals := by
  obtain ⟨target, capturedAt, latency, failure⟩ := o
  cases failure with
  | none => rfl
  | some failure =>
      obtain ⟨cls, message⟩ := failure
      cases cls <;> rfl

/-- Outcomes counted are successes or failures, and the unknown ones are failures. -/
def Counters.IsSound (c : Counters) : Prop :=
  c.probed = c.succeeded + c.failed ∧ c.unknown ≤ c.failed

/-- Counters stay sound with one more outcome. -/
theorem Counters.IsSound.observe {c : Counters} (h : c.IsSound) (o : Outcome) :
    (c.observeOutcome o).IsSound := by
  obtain ⟨hprobed, hsucceeded, hfailed, hunknown⟩ := c.observeOutcome_eq o
  refine ⟨?_, hunknown h.2⟩
  rw [hprobed, hsucceeded, hfailed, h.1]
  split <;> omega

namespace Report

/-- A report of probes is one of outcomes. -/
def IsSound : Report → Prop
  | .probed c => c.IsSound
  | _ => True

/-- One more thing is counted by who counts such things. -/
def observe : Report → Observation → Option Report
  | .claimed n, .claimed more => some (.claimed (n + more))
  | .probed c, .probed o => some (.probed (c.observeOutcome o))
  | .committed n k, .committed outcomes batches => some (.committed (n + outcomes) (k + batches))
  | _, _ => none

/-- Nothing to report, of the same kind. -/
def cleared : Report → Report
  | .claimed _ => .claimed 0
  | .probed _ => .probed .zero
  | .committed _ _ => .committed 0 0

variable {r r' : Report} {x : Observation}

/-- A cleared report counts nothing. -/
theorem totals_cleared (r : Report) : r.cleared.totals = .zero := by cases r <;> rfl

/-- A cleared report is sound. -/
theorem isSound_cleared (r : Report) : r.cleared.IsSound := by
  cases r with
  | claimed | committed => trivial
  | probed => exact ⟨rfl, Nat.le_refl _⟩

/-- What was counted comes to that much more. -/
theorem totals_observe (h : r.observe x = some r') :
    r'.totals = r.totals + Totals.observed [x] := by
  cases r with
  | claimed n =>
      cases x with
      | claimed more =>
          obtain rfl := Option.some.inj h
          simp [totals, Totals.apply, Totals.add_eq, Totals.zero, Totals.observed,
            Observation.total, Observation.targets, Observation.outcome?, Observation.recorded,
            Observation.batches]
      | probed | committed => cases h
  | probed c =>
      cases x with
      | probed o =>
          obtain rfl := Option.some.inj h
          rw [Totals.observed_probed]
          exact totals_probed_observe c o
      | claimed | committed => cases h
  | committed n k =>
      cases x with
      | committed outcomes batches =>
          obtain rfl := Option.some.inj h
          simp [totals, Totals.apply, Totals.add_eq, Totals.zero, Totals.observed,
            Observation.total, Observation.targets, Observation.outcome?, Observation.recorded,
            Observation.batches]
      | claimed | probed => cases h

/-- A reporter stays sound whatever it sees. -/
theorem IsSound.observe (h : r.IsSound) (hr : r.observe x = some r') : r'.IsSound := by
  cases r with
  | claimed n =>
      cases x with
      | claimed => obtain rfl := Option.some.inj hr; trivial
      | probed | committed => cases hr
  | probed c =>
      cases x with
      | probed o =>
          obtain rfl := Option.some.inj hr
          exact Counters.IsSound.observe h o
      | claimed | committed => cases hr
  | committed n k =>
      cases x with
      | committed => obtain rfl := Option.some.inj hr; trivial
      | claimed | probed => cases hr

end Report

/-- Who counts and reports. -/
structure Reporter where
  /-- What it has counted and not reported. -/
  pending : Report
  /-- Whether it has made its last report. -/
  hasEnded : Bool
deriving DecidableEq

/-- Who counts what a stage does, with nothing counted. -/
def Reporter.fresh : Stage → Reporter
  | .loader => ⟨.claimed 0, false⟩
  | .probe => ⟨.probed .zero, false⟩
  | .recorder => ⟨.committed 0 0, false⟩

namespace Reporter

/-- A reporter whose offer to report was accepted, or not. -/
def offered (r : Reporter) (accepted : Bool) : Reporter :=
  { r with pending := if accepted then r.pending.cleared else r.pending }

/-- A reporter that has made its last report. -/
def ended (r : Reporter) : Reporter := ⟨r.pending.cleared, true⟩

variable {r : Reporter}

/-- A report that was accepted leaves nothing to report; any other is kept. -/
theorem totals_offered (r : Reporter) (accepted : Bool) :
    (r.offered accepted).pending.totals = if accepted then .zero else r.pending.totals := by
  cases accepted with
  | true => exact r.pending.totals_cleared
  | false => rfl

/-- Who has ended has nothing to report. -/
theorem totals_ended (r : Reporter) : r.ended.pending.totals = .zero := r.pending.totals_cleared

/-- Accepted or not, what is left to report is sound. -/
theorem isSound_offered (h : r.pending.IsSound) (accepted : Bool) :
    (r.offered accepted).pending.IsSound := by
  cases accepted with
  | true => exact r.pending.isSound_cleared
  | false => exact h

end Reporter

/-- What happens among reporters. -/
inductive ReportEvent where
  | observed (i : Nat) (x : Observation)
  /-- An offer to report is accepted or not. -/
  | offered (i : Nat) (accepted : Bool)
  /-- A last report is accepted, or nobody takes it. -/
  | reported (i : Nat) (accepted : Bool)
  | collected
  | closed
deriving DecidableEq

/-- Reporters, the channel that they share, and the totals of the reports taken out. -/
structure Reporting where
  reporters : List Reporter
  reports : Channel Report
  totals : Totals
deriving DecidableEq

namespace Reporting

variable {s s' : Reporting} {e : ReportEvent} {seen : List Observation} {capacity : Nat}

/-- Some reporters who have counted nothing. -/
def start (stages : List Stage) (capacity : Nat) : Reporting :=
  ⟨stages.map Reporter.fresh, .ofCapacity capacity, .zero⟩

/-- The one of the reporters, if it has not made its last report. -/
def reporter? (s : Reporting) (i : Nat) : Option Reporter :=
  s.reporters[i]?.filter (!·.hasEnded)

/-- What an event makes of it; nothing, if it cannot happen. -/
def step (s : Reporting) : ReportEvent → Option Reporting
  | .observed i x =>
    (s.reporter? i).bind fun r => (r.pending.observe x).map fun pending =>
      { s with reporters := s.reporters.set i { r with pending := pending } }
  | .offered i accepted =>
    (s.reporter? i).bind fun r =>
      (System.offerReport s.reports r.pending accepted).map fun reports =>
        { s with reporters := s.reporters.set i (r.offered accepted), reports := reports }
  | .reported i accepted =>
    (s.reporter? i).bind fun r =>
      (System.lastReport s.reports r.pending accepted).map fun reports =>
        { s with reporters := s.reporters.set i r.ended, reports := reports }
  | .collected =>
    s.reports.pop?.map fun (r, reports) => { s with reports := reports, totals := s.totals.apply r }
  | .closed => some { s with reports := s.reports.close }

/-- All that can happen. -/
inductive Moves (s : Reporting) : ReportEvent → Reporting → Prop
  | observed {i : Nat} {r : Reporter} {pending : Report} (hr : s.reporters[i]? = some r)
    (hthere : r.hasEnded = false) {x : Observation} (hx : r.pending.observe x = some pending) :
    Moves s (.observed i x)
      { s with reporters := s.reporters.set i { r with pending := pending } }
  | offered {i : Nat} {r : Reporter} {reports : Channel Report} {accepted : Bool}
    (hr : s.reporters[i]? = some r) (hthere : r.hasEnded = false)
    (hreports : System.offerReport s.reports r.pending accepted = some reports) :
    Moves s (.offered i accepted)
      { s with reporters := s.reporters.set i (r.offered accepted), reports := reports }
  | reported {i : Nat} {r : Reporter} {reports : Channel Report} {accepted : Bool}
    (hr : s.reporters[i]? = some r) (hthere : r.hasEnded = false)
    (hreports : System.lastReport s.reports r.pending accepted = some reports) :
    Moves s (.reported i accepted)
      { s with reporters := s.reporters.set i r.ended, reports := reports }
  | collected {r : Report} {rest : List Report} (hqueue : s.reports.queue = r :: rest) :
    Moves s .collected
      { s with reports := { s.reports with queue := rest }, totals := s.totals.apply r }
  | closed : Moves s .closed { s with reports := s.reports.close }

/-- Only reporters that have not ended can do something. -/
theorem reporter?_eq_some_iff {i : Nat} {r : Reporter} :
    s.reporter? i = some r ↔ s.reporters[i]? = some r ∧ r.hasEnded = false := by
  simp [reporter?, Option.filter_eq_some_iff]

/-- The events of a system of reporters are the ways in which it can go. -/
theorem step_eq_some_iff : s.step e = some s' ↔ s.Moves e s' := by
  constructor
  · intro h
    cases e with
    | observed i x =>
        obtain ⟨r, hr, h⟩ := Option.bind_eq_some_iff.1 h
        obtain ⟨pending, hpending, rfl⟩ := Option.map_eq_some_iff.1 h
        obtain ⟨hr, hthere⟩ := reporter?_eq_some_iff.1 hr
        exact .observed hr hthere hpending
    | offered i accepted =>
        obtain ⟨r, hr, h⟩ := Option.bind_eq_some_iff.1 h
        obtain ⟨reports, hreports, rfl⟩ := Option.map_eq_some_iff.1 h
        obtain ⟨hr, hthere⟩ := reporter?_eq_some_iff.1 hr
        exact .offered hr hthere hreports
    | reported i accepted =>
        obtain ⟨r, hr, h⟩ := Option.bind_eq_some_iff.1 h
        obtain ⟨reports, hreports, rfl⟩ := Option.map_eq_some_iff.1 h
        obtain ⟨hr, hthere⟩ := reporter?_eq_some_iff.1 hr
        exact .reported hr hthere hreports
    | collected =>
        obtain ⟨⟨r, reports⟩, hreports, rfl⟩ := Option.map_eq_some_iff.1 h
        obtain ⟨rest, hqueue, rfl⟩ := Channel.pop?_eq_some_iff.1 hreports
        exact .collected hqueue
    | closed =>
        obtain rfl := Option.some.inj h
        exact .closed
  · intro h
    cases h with
    | observed hr hthere hx =>
        exact Option.bind_eq_some_iff.2 ⟨_, reporter?_eq_some_iff.2 ⟨hr, hthere⟩,
          Option.map_eq_some_iff.2 ⟨_, hx, rfl⟩⟩
    | offered hr hthere hreports | reported hr hthere hreports =>
        exact Option.bind_eq_some_iff.2 ⟨_, reporter?_eq_some_iff.2 ⟨hr, hthere⟩,
          Option.map_eq_some_iff.2 ⟨_, hreports, rfl⟩⟩
    | collected hqueue =>
        exact Option.map_eq_some_iff.2
          ⟨(_, _), Channel.pop?_eq_some_iff.2 ⟨_, hqueue, rfl⟩, rfl⟩
    | closed => rfl

/-- An observation changes nothing of a reporter but what it has still to report. -/
theorem Moves.observed_set {i : Nat} {r r' : Reporter} {x : Observation}
    (hr : s.reporters[i]? = some r) (hthere : r.hasEnded = false) (hthere' : r'.hasEnded = false)
    (hx : r.pending.observe x = some r'.pending) :
    s.Moves (.observed i x) { s with reporters := s.reporters.set i r' } := by
  have hr' : { r with pending := r'.pending } = r' := by rw [hthere, ← hthere']
  have hmoves := Moves.observed hr hthere hx
  rw [hr'] at hmoves
  exact hmoves

/-- An offer, to a reporter that goes on as after an offer. -/
theorem Moves.offered_set {i : Nat} {r r' : Reporter} {accepted : Bool} {reports : Channel Report}
    (hr : s.reporters[i]? = some r) (hthere : r.hasEnded = false)
    (hreports : System.offerReport s.reports r.pending accepted = some reports)
    (hgoes : r' = r.offered accepted) :
    s.Moves (.offered i accepted)
      { s with reporters := s.reporters.set i r', reports := reports } := by
  rw [hgoes]
  exact .offered hr hthere hreports

/-- A last report, to a reporter that goes on as after its last report. -/
theorem Moves.reported_set {i : Nat} {r r' : Reporter} {accepted : Bool} {reports : Channel Report}
    (hr : s.reporters[i]? = some r) (hthere : r.hasEnded = false)
    (hreports : System.lastReport s.reports r.pending accepted = some reports)
    (hgoes : r' = r.ended) :
    s.Moves (.reported i accepted)
      { s with reporters := s.reporters.set i r', reports := reports } := by
  rw [hgoes]
  exact .reported hr hthere hreports

/-- One more thing observed. -/
def note (seen : List Observation) (_ : Reporting) : ReportEvent → List Observation
  | .observed _ x => seen ++ [x]
  | _ => seen

/-- Reporters, with what they observed, after an event. -/
def noted (now : Reporting × List Observation) (e : ReportEvent) :
    Option (Reporting × List Observation) :=
  noting step note now e

/-- What was counted: the totals, the reports under way, and what is still to be reported. -/
def underway (s : Reporting) : Totals :=
  s.totals + Totals.sum s.reports.queue + Totals.sum (s.reporters.map (·.pending))

/-- **Where the counts are.**  As long as reports are taken, what was counted is under
way; and all of it are outcomes, of which every one was a success or a failure. -/
structure Conserves (s : Reporting) (capacity : Nat) (seen : List Observation) : Prop where
  counted : s.reports.isOpen → s.underway = .observed seen
  pending : ∀ r ∈ s.reporters, r.pending.IsSound
  queued : ∀ r ∈ s.reports.queue, r.IsSound
  totals : s.totals.probed = s.totals.succeeded + s.totals.failed ∧
    s.totals.unknown ≤ s.totals.failed
  fits : s.reports.Fits capacity
  ended : ∀ r ∈ s.reporters, r.hasEnded → r.pending.totals = .zero

theorem conserves_start (stages : List Stage) (capacity : Nat) :
    (start stages capacity).Conserves capacity [] where
  counted _ := by
    have hpending : Totals.sum ((start stages capacity).reporters.map (·.pending)) = .zero := by
      refine Totals.sum_map_eq_zero ?_
      intro r hr
      obtain ⟨stage, _, rfl⟩ := List.mem_map.1 hr
      cases stage <;> rfl
    rw [underway, hpending]
    rfl
  pending r hr := by
    obtain ⟨stage, _, rfl⟩ := List.mem_map.1 hr
    cases stage with
    | loader | recorder => trivial
    | probe => exact ⟨rfl, Nat.le_refl _⟩
  queued _ h := by cases h
  totals := ⟨rfl, Nat.le_refl _⟩
  fits := Channel.fits_ofCapacity capacity
  ended r hr hended := by
    obtain ⟨stage, _, rfl⟩ := List.mem_map.1 hr
    cases stage <;> cases hended

section Steps

/-- What one reporter has still to report is under way, wherever it is. -/
theorem underway_set {i : Nat} {r r' : Reporter} {reports : Channel Report} {d : Totals}
    (hr : s.reporters[i]? = some r)
    (h : Totals.sum reports.queue + r'.pending.totals =
      Totals.sum s.reports.queue + r.pending.totals + d) :
    underway { s with reporters := s.reporters.set i r', reports := reports } =
      s.underway + d := by
  obtain ⟨others, hsum, hset⟩ := Totals.exists_sum_map_set (·.pending) hr
  show s.totals + Totals.sum reports.queue +
    Totals.sum ((s.reporters.set i r').map (·.pending)) = _
  rw [hset]
  calc
    _ = s.totals + others + (Totals.sum reports.queue + r'.pending.totals) := by ac_rfl
    _ = s.underway + d := by
        rw [h, underway, hsum]
        ac_rfl

/-- After an event, what is under way is what was seen. -/
theorem Conserves.counted_step (h : s.Conserves capacity seen) (hmoves : s.Moves e s')
    (hopen : s'.reports.isOpen) : s'.underway = .observed (note seen s e) := by
  cases hmoves with
  | @observed i r pending hr hthere x hx =>
      show _ = Totals.observed (seen ++ [x])
      rw [Totals.observed_append, ← h.counted hopen]
      refine underway_set hr ?_
      rw [Report.totals_observe hx]
      ac_rfl
  | @offered i r reports accepted hr hthere hreports =>
      obtain ⟨_, hsame⟩ := System.offerReport_eq hreports
      refine (underway_set (d := .zero) hr ?_).trans (h.counted (hsame ▸ hopen))
      rw [r.totals_offered]
      exact System.sum_offerReport hreports
  | @reported i r reports accepted hr hthere hreports =>
      obtain ⟨_, hsame, _⟩ := System.lastReport_eq hreports
      have hbefore : s.reports.isOpen := hsame ▸ hopen
      refine (underway_set (d := .zero) hr ?_).trans (h.counted hbefore)
      rw [r.totals_ended]
      exact System.sum_lastReport hreports hbefore
  | @collected r rest hqueue =>
      have hcounted := h.counted hopen
      rw [underway, hqueue, Totals.sum_cons] at hcounted
      show s.totals.apply r + Totals.sum rest + Totals.sum (s.reporters.map (·.pending)) = _
      rw [Totals.apply_eq]
      refine Eq.trans ?_ hcounted
      ac_rfl
  | closed => cases hopen

/-- Of reporters one goes on to what is sound. -/
theorem Conserves.pending_set (h : s.Conserves capacity seen) {r' : Reporter} {i : Nat}
    (hr' : r'.pending.IsSound) : ∀ r ∈ s.reporters.set i r', r.pending.IsSound := by
  intro r hr
  rcases List.mem_or_eq_of_mem_set hr with hr | rfl
  · exact h.pending r hr
  · exact hr'

/-- What is reported is sound, and there was room for it. -/
theorem Conserves.queue_push (h : s.Conserves capacity seen) {r : Report} (hr : r.IsSound)
    {reports : Channel Report}
    (hreports : reports = s.reports ∨
      0 < s.reports.room ∧ reports = { s.reports with queue := s.reports.queue ++ [r] }) :
    (∀ r ∈ reports.queue, r.IsSound) ∧ reports.Fits capacity := by
  rcases hreports with rfl | ⟨hroom, rfl⟩
  · exact ⟨h.queued, h.fits⟩
  · refine ⟨?_, h.fits.push hroom r⟩
    intro r' hr'
    rcases List.mem_append.1 hr' with hr' | hr'
    · exact h.queued r' hr'
    · obtain rfl := List.mem_singleton.1 hr'
      exact hr

/-- Of reporters one goes on, and has nothing to report if it has ended. -/
theorem Conserves.ended_set (h : s.Conserves capacity seen) {r' : Reporter} {i : Nat}
    (hr' : r'.hasEnded → r'.pending.totals = .zero) :
    ∀ r ∈ s.reporters.set i r', r.hasEnded → r.pending.totals = .zero := by
  intro r hr
  rcases List.mem_or_eq_of_mem_set hr with hr | rfl
  · exact h.ended r hr
  · exact hr'

/-- **One event** loses no count. -/
theorem Conserves.step (h : s.Conserves capacity seen) (hmoves : s.Moves e s') :
    s'.Conserves capacity (note seen s e) := by
  have hcounted := h.counted_step hmoves
  cases hmoves with
  | @observed i r pending hr hthere x hx =>
      have hsound := (h.pending r (List.mem_of_getElem? hr)).observe hx
      refine ⟨hcounted, h.pending_set hsound, h.queued, h.totals, h.fits, h.ended_set ?_⟩
      intro hended
      rw [hthere] at hended
      cases hended
  | @offered i r reports accepted hr hthere hreports =>
      have hsound := h.pending r (List.mem_of_getElem? hr)
      obtain ⟨hqueued, hfits⟩ := h.queue_push hsound (System.offerReport_cases hreports)
      refine ⟨hcounted, h.pending_set (Reporter.isSound_offered hsound accepted), hqueued,
        h.totals, hfits, h.ended_set ?_⟩
      intro hended
      have hended : r.hasEnded := hended
      rw [hthere] at hended
      cases hended
  | @reported i r reports accepted hr hthere hreports =>
      have hsound := h.pending r (List.mem_of_getElem? hr)
      obtain ⟨hqueued, hfits⟩ := h.queue_push hsound (System.lastReport_cases hreports)
      exact ⟨hcounted, h.pending_set r.pending.isSound_cleared, hqueued, h.totals, hfits,
        h.ended_set fun _ => r.totals_ended⟩
  | @collected r rest hqueue =>
      have hqueued := h.queued
      rw [hqueue] at hqueued
      refine ⟨hcounted, h.pending, fun r' hr' => hqueued r' (List.mem_cons_of_mem _ hr'), ?_,
        h.fits.pop hqueue, h.ended⟩
      have hsound := hqueued r List.mem_cons_self
      obtain ⟨hprobed, hunknown⟩ := h.totals
      cases r with
      | claimed | committed => exact ⟨hprobed, hunknown⟩
      | probed c =>
          obtain ⟨hprobed', hunknown'⟩ := hsound
          show s.totals.probed + c.probed =
              s.totals.succeeded + c.succeeded + (s.totals.failed + c.failed) ∧
            s.totals.unknown + c.unknown ≤ s.totals.failed + c.failed
          omega
  | closed =>
      exact ⟨hcounted, h.pending, (fun r hr => by cases hr), h.totals, h.fits.close, h.ended⟩

end Steps

section Runs

variable {stages : List Stage} {events : List ReportEvent}

/-- **Wherever a run leads,** no count is lost. -/
theorem conserves_of_run (h : Run noted (start stages capacity, []) events (s, seen)) :
    s.Conserves capacity seen := by
  refine h.invariant (P := fun now => now.1.Conserves capacity now.2)
    (conserves_start stages capacity) ?_
  intro now e next hnow hstep
  obtain ⟨hstep, hseen⟩ := noting_eq_some.1 hstep
  rw [hseen]
  exact hnow.step (step_eq_some_iff.1 hstep)

/-- **Counts are conserved.**  As long as reports are taken, the totals, the reports in
the channel and what each reporter has still to report add up to all that was observed.
Whatever a reporter has still to report, whatever is in the channel and the totals are
sums of outcomes: successes and failures, the unknown ones among the failures.  The
channel holds no more than it was made for.  And when every reporter has made its last
report and the channel is empty, the totals are all that was observed. -/
theorem counts_are_conserved (hrun : Run noted (start stages capacity, []) events (s, seen))
    (hopen : s.reports.isOpen) :
    s.totals + Totals.sum s.reports.queue + Totals.sum (s.reporters.map (·.pending)) =
        .observed seen ∧
      ((∀ r ∈ s.reporters, ∀ c, r.pending = .probed c →
          c.probed = c.succeeded + c.failed ∧ c.unknown ≤ c.failed) ∧
        (∀ c, .probed c ∈ s.reports.queue →
          c.probed = c.succeeded + c.failed ∧ c.unknown ≤ c.failed) ∧
        s.totals.probed = s.totals.succeeded + s.totals.failed ∧
        s.totals.unknown ≤ s.totals.failed) ∧
      s.reports.queue.length ≤ capacity ∧
      ((∀ r ∈ s.reporters, r.hasEnded) → s.reports.queue = [] → s.totals = .observed seen) := by
  obtain ⟨hcounted, hpending, hqueued, htotals, hfits, hended⟩ := conserves_of_run hrun
  have hcounted := hcounted hopen
  refine ⟨hcounted, ⟨?_, fun c hc => hqueued _ hc, htotals⟩, hfits.fits, ?_⟩
  · intro r hr c hc
    have hsound := hpending r hr
    rw [hc] at hsound
    exact hsound
  · intro hall hempty
    have hzero : Totals.sum (s.reporters.map (·.pending)) = .zero := by
      refine Totals.sum_map_eq_zero ?_
      intro r hr
      exact hended r hr (hall r hr)
    rw [underway, hempty, hzero] at hcounted
    exact hcounted

/-- A loader, two workers and a recorder over a channel for one report: an offer is turned
down between two probes, and the next one carries both. -/
theorem counts_are_conserved_one_refused :
    ∃ (events : List ReportEvent) (s : Reporting) (seen : List Observation),
      Run noted (start [.loader, .probe, .probe, .recorder] 1, []) events (s, seen) ∧
      .offered 1 false ∈ events ∧ s.reports.isOpen ∧ (∀ r ∈ s.reporters, r.hasEnded) ∧
      s.reports.queue = [] ∧ s.totals = .observed seen ∧
      s.totals = ⟨3, 3, 2, 1, 1, 2, 1⟩ := by
  let good : Outcome := ⟨default, default, 7, none⟩
  let bad : Outcome := ⟨default, default, 7, some ⟨.unknown, "?"⟩⟩
  let events : List ReportEvent := [.observed 0 (.claimed 3), .offered 0 true,
    .observed 1 (.probed good), .offered 1 false, .observed 2 (.probed good), .collected,
    .observed 1 (.probed bad), .offered 1 true, .observed 3 (.committed 2 1), .collected,
    .reported 3 true, .reported 0 true, .collected, .reported 2 true, .reported 1 true,
    .collected]
  have hchecked : (events.foldlM noted (start [.loader, .probe, .probe, .recorder] 1, [])).any
      fun now => now.1.reports.isOpen ∧ (∀ r ∈ now.1.reporters, r.hasEnded) ∧
        now.1.reports.queue = [] ∧ Totals.observed now.2 = ⟨3, 3, 2, 1, 1, 2, 1⟩ := by decide
  obtain ⟨⟨s, seen⟩, hrun, hchecked⟩ := Run.exists_of_any hchecked
  obtain ⟨hopen, hended, hempty, hseen⟩ := of_decide_eq_true hchecked
  obtain ⟨_, _, _, hall⟩ := counts_are_conserved hrun hopen
  have htotals := hall hended hempty
  exact ⟨events, s, seen, hrun, by decide, hopen, hended, hempty, htotals, htotals.trans hseen⟩

end Runs

end Reporting

end PeerWatch
