import PeerWatch.Proofs.Pipeline.Tallies

/-!
# What a loader delivers

Whatever its claims give, and whenever the signal is given, its targets find nobody to take
them or its reports no room, a loader hands on the targets that it claimed, each once and in
their order, and claims again only when it has handed on all of them.  There is one reason
for which it stops, and this settles how it ends and what may be left of the last batch.
What it claimed is reported, at the latest when it ends, as long as somebody takes reports.

The loader is watched alone: what happens around it, at the other ends of its channels and
to the signal, may happen at any moment.

* `DeliveryEvent`, `System.deliver` — what happens to a loader and around it;
* `StopReason`, `Delivery` — why it stopped, what it delivered and what came of it;
* `Loader.Delivers`, `Loader.Delivers.step` — what holds of the loader and its delivery;
* `System.Delivers`, `System.Delivers.step` — and of the channels and the signal;
* `System.loader_hands_on_what_it_claims`.
-/

namespace PeerWatch

/-- Why a loader stops. -/
inductive StopReason where
  | signalled
  | turnedAway
  | claimFailed (e : StoreError)
deriving DecidableEq

namespace StopReason

/-- The error that a loader stops with, if it failed. -/
def failure? : StopReason → Option StoreError
  | .claimFailed e => some e
  | .signalled | .turnedAway => none

/-- How a loader ends that stopped for a reason. -/
def result : StopReason → Except PipelineError Unit
  | .claimFailed e => .error (.claim e)
  | .signalled | .turnedAway => .ok ()

end StopReason

/-- The reason to stop that an event is, if it is one. -/
def LoaderEvent.stop? : LoaderEvent → Option StopReason
  | .signalled => some .signalled
  | .turnedAway => some .turnedAway
  | .claimFailed e => some (.claimFailed e)
  | _ => none

/-- The report of a loader that an event accepts. -/
def Loader.accepted (l : Loader) : LoaderEvent → List Report
  | .offered accepted | .reported accepted => if accepted then l.pending.toSend else []
  | _ => []

/-- What happens to a loader and around it. -/
inductive DeliveryEvent where
  | loader (e : LoaderEvent)
  /-- The first target is taken out of its channel. -/
  | targetTaken
  | targetsClosed
  /-- Somebody else reports. -/
  | reportPut (r : Report)
  | reportTaken
  | reportsClosed
  | signalGiven
deriving DecidableEq

/-- What a loader has delivered. -/
structure Delivery where
  log : LoaderLog
  /-- Its reports that were accepted. -/
  reported : List Report
  /-- The reasons to stop that it met. -/
  stops : List StopReason
  /-- The targets taken out of its channel. -/
  taken : List Target
  /-- The reports taken out of their channel, the loader's and others. -/
  collected : List Report
deriving DecidableEq

namespace Delivery

def empty : Delivery := ⟨.empty, [], [], [], []⟩

/-- One more event at the loader. -/
def noteLoader (d : Delivery) (l : Loader) (e : LoaderEvent) : Delivery :=
  { d with
    log := d.log.note l e
    reported := d.reported ++ l.accepted e
    stops := d.stops ++ e.stop?.toList }

/-- One more event at the loader or around it. -/
def note (d : Delivery) (s : System) : DeliveryEvent → Delivery
  | .loader e => d.noteLoader s.loader e
  | .targetTaken => { d with taken := d.taken ++ s.targets.queue.head?.toList }
  | .reportTaken => { d with collected := d.collected ++ s.reports.queue.head?.toList }
  | .targetsClosed | .reportPut _ | .reportsClosed | .signalGiven => d

end Delivery

namespace Loader

variable {l l' : Loader} {e : LoaderEvent} {size : Nat} {log : LoaderLog}
  {stops : List StopReason} {reported : List Report}

/-- A loader is at work, or torn down in it, without a reason to stop; or it has met one, and
all that it has to do is to report. -/
def StopsFor (l : Loader) (stops : List StopReason) : Prop :=
  (l.isAtWork ∨ l.phase = .tornDown) ∧ stops = [] ∧ l.failure = none ∨
    (l.phase = .reporting ∨ l.phase = .ended) ∧
      ∃ reason, stops = [reason] ∧ l.failure = reason.failure?

/-- What holds of a loader and its log: what it handed on, batch after batch; why it
stopped, if it did; and that nothing is left to report at its end. -/
structure Delivers (size : Nat) (l : Loader) (log : LoaderLog) (stops : List StopReason) :
    Prop where
  hands : l.Hands size log
  earlier : log.claims.dropLast.flatten <+: log.handed
  next : ∀ rest, l.phase = .handing rest → rest ≠ []
  reason : l.StopsFor stops
  failed : ∀ e, .claimFailed e ∈ stops → log.handed = log.claimed
  cleared : l.phase = .ended → l.unreported = 0

theorem delivers_fresh (size : Nat) : (fresh size).Delivers size .empty [] where
  hands := hands_fresh size
  earlier := List.prefix_rfl
  next _ hphase := nomatch hphase
  reason := .inl ⟨.inl rfl, rfl, rfl⟩
  failed _ hmem := nomatch hmem
  cleared hphase := nomatch hphase

/-- Who has stopped is not at work. -/
theorem StopsFor.of_isAtWork (h : l.StopsFor stops)
    (hwork : l.isAtWork) : stops = [] ∧ l.failure = none := by
  rcases h with ⟨_, hnone⟩ | ⟨hphase, _⟩
  · exact hnone
  · rcases hphase with hphase | hphase <;> simp [isAtWork, hphase] at hwork

/-- At a loader that is about to claim nothing is left of what it claimed. -/
theorem Hands.of_claiming (h : l.Hands size log) (hphase : l.phase = .claiming) :
    log.handed = log.claimed := by
  obtain ⟨hclaimed, _⟩ := h.kept (by simp [isAtWork, hphase])
  simpa [Loader.kept, hphase] using hclaimed.symm

/-- A loader that hands on is at work. -/
theorem isAtWork_handing (l : Loader) (rest : List Target) : (l.handing rest).isAtWork := by
  cases rest <;> rfl

/-- Handing on, a loader has failed no more than before. -/
theorem failure_handing (l : Loader) (rest : List Target) :
    (l.handing rest).failure = l.failure := by
  cases rest <;> rfl

/-- Who is at work goes on without a reason to stop. -/
theorem StopsFor.of_working (h : l.StopsFor stops) (hwork : l.isAtWork)
    (hwork' : l'.isAtWork ∨ l'.phase = .tornDown) (hfailure : l'.failure = l.failure) :
    l'.StopsFor (stops ++ []) := by
  obtain ⟨rfl, hnone⟩ := h.of_isAtWork hwork
  exact .inl ⟨hwork', rfl, hfailure.trans hnone⟩

/-- Who is at work stops for the first reason that it meets. -/
theorem StopsFor.of_reason {reason : StopReason} (h : l.StopsFor stops)
    (hwork : l.isAtWork) (hphase : l'.phase = .reporting)
    (hfailure : l.failure = none → l'.failure = reason.failure?) :
    l'.StopsFor (stops ++ [reason]) := by
  obtain ⟨rfl, hnone⟩ := h.of_isAtWork hwork
  exact .inr ⟨.inl hphase, reason, rfl, hfailure hnone⟩

/-- Whatever happens to a loader, but its last report, happens to it at work. -/
theorem Moves.isAtWork_of_not_reported (h : l.Moves e l')
    (he : ∀ accepted, e ≠ .reported accepted) : l.isAtWork := by
  cases h with
  | looked hwatchful | signalled hwatchful => exact isAtWork_of_isWatchful hwatchful
  | reported hphase accepted => exact absurd rfl (he accepted)
  | idled hphase | claimed hphase | claimFailed hphase | tornDown hphase | offered hphase
  | handed hphase | turnedAway hphase | rested hphase => simp [isAtWork, hphase]

theorem StopsFor.step (h : l.StopsFor stops) (hmoves : l.Moves e l') :
    l'.StopsFor (stops ++ e.stop?.toList) := by
  have hwork := hmoves.isAtWork_of_not_reported
  cases hmoves with
  | looked hwatchful => exact h.of_working (hwork nofun) (.inl (hwork nofun)) rfl
  | idled | claimed | rested => exact h.of_working (hwork nofun) (.inl rfl) rfl
  | tornDown => exact h.of_working (hwork nofun) (.inr rfl) rfl
  | offered | handed =>
      exact h.of_working (hwork nofun) (.inl (isAtWork_handing _ _)) (failure_handing _ _)
  | signalled | turnedAway => exact h.of_reason (hwork nofun) rfl id
  | claimFailed => exact h.of_reason (hwork nofun) rfl fun _ => rfl
  | reported hphase accepted =>
      rcases h with ⟨hwork | htorn, _⟩ | ⟨_, reason, rfl, hfailure⟩
      · simp [isAtWork, hphase] at hwork
      · rw [hphase] at htorn
        cases htorn
      · exact .inr ⟨.inr rfl, reason, rfl, hfailure⟩

/-- A loader begins a batch only when it has handed on the earlier ones. -/
theorem Delivers.earlier_step (h : l.Delivers size log stops) (hmoves : l.Moves e l') :
    (log.note l e).claims.dropLast.flatten <+: (log.note l e).handed := by
  have hclaim : l.phase = .claiming → ∀ batch,
      (log.claims ++ [batch]).dropLast.flatten <+: log.handed := by
    intro hphase batch
    rw [List.dropLast_concat, h.hands.of_claiming hphase]
    exact List.prefix_rfl
  cases hmoves with
  | idled hphase hlooked => exact hclaim hphase []
  | @claimed hphase hlooked batch hbatch hsize => exact hclaim hphase batch
  | handed hphase hlooked => exact h.earlier.trans (List.prefix_append _ _)
  | _ => exact h.earlier

/-- When a claim fails, all that was claimed before has been handed on. -/
theorem Delivers.failed_step (h : l.Delivers size log stops) (hmoves : l.Moves e l')
    {e' : StoreError} (hmem : .claimFailed e' ∈ stops ++ e.stop?.toList) :
    (log.note l e).handed = (log.note l e).claimed := by
  by_cases hreport : ∃ accepted, e = .reported accepted
  · obtain ⟨accepted, rfl⟩ := hreport
    exact h.failed e' (by simpa [LoaderEvent.stop?] using hmem)
  · -- nothing was met before, so the claim failed just now
    have hwork := hmoves.isAtWork_of_not_reported fun accepted he => hreport ⟨accepted, he⟩
    rw [(h.reason.of_isAtWork hwork).1] at hmem
    cases hmoves with
    | claimFailed hphase => exact h.hands.of_claiming hphase
    | signalled | turnedAway => cases List.mem_singleton.1 hmem
    | _ => cases hmem

/-- **One event** at a loader. -/
theorem Delivers.step (h : l.Delivers size log stops) (hmoves : l.Moves e l') :
    l'.Delivers size (log.note l e) (stops ++ e.stop?.toList) where
  hands := h.hands.step hmoves
  earlier := h.earlier_step hmoves
  next := by
    have hhanding : ∀ (l : Loader) (rest rest' : List Target),
        (l.handing rest).phase = .handing rest' → rest' ≠ [] := by
      rintro l rest rest' hphase rfl
      cases rest <;> cases hphase
    cases hmoves with
    | looked => exact h.next
    | offered => exact hhanding _ _
    | handed => exact hhanding _ _
    | _ => exact fun rest hphase => nomatch hphase
  reason := h.reason.step hmoves
  failed _ hmem := h.failed_step hmoves hmem
  cleared := by
    cases hmoves with
    | looked => exact h.cleared
    | @offered batch => cases batch <;> exact fun hphase => nomatch hphase
    | @handed t rest => cases rest <;> exact fun hphase => nomatch hphase
    | reported => exact fun _ => rfl
    | _ => exact fun hphase => nomatch hphase

/-- A report that is accepted counts all that was not reported. -/
theorem claimed_sum_toSend (reported : List Report) (l : Loader) :
    (Totals.sum (reported ++ l.pending.toSend)).claimed =
      (Totals.sum reported).claimed + l.unreported := by
  rw [Totals.sum_append, Totals.sum_toSend]
  show _ + (0 + l.unreported) = _
  rw [Nat.zero_add]

/-- What was claimed is reported or still to be, if no report is lost. -/
theorem Moves.counted (h : l.Moves e l')
    (hcounted : (Totals.sum reported).claimed + l.unreported = log.claimed.length)
    (hkept : e = .reported false → l.pending.toSend = []) :
    (Totals.sum (reported ++ l.accepted e)).claimed + l'.unreported =
      (log.note l e).claimed.length := by
  have hbefore : l.pending.totals.claimed = l.unreported := Nat.zero_add _
  have hafter : l'.unreported = (l.pendingAfter e).claimed := by
    rw [← h.totals]
    exact (Nat.zero_add _).symm
  have hidle : (Totals.sum (reported ++ [])).claimed + l.pending.totals.claimed =
      log.claimed.length := by
    rw [List.append_nil, hbefore]
    exact hcounted
  have haccepted : (Totals.sum (reported ++ l.pending.toSend)).claimed = log.claimed.length :=
    (claimed_sum_toSend reported l).trans hcounted
  rw [hafter]
  cases e with
  | claimed batch =>
      show (Totals.sum (reported ++ [])).claimed +
        (l.pending.totals.claimed + (0 + batch.length)) = _
      simp only [claimed_claimed, List.length_append]
      omega
  | offered accepted =>
      cases accepted with
      | true => exact haccepted
      | false => exact hidle
  | reported accepted =>
      cases accepted with
      | true => exact haccepted
      | false =>
          rw [hkept rfl] at haccepted
          exact haccepted
  | _ => exact hidle

end Loader

namespace System

variable {s s' : System} {e : LoaderEvent} {size : Nat} {d : Delivery}

/-- What happens at a loader or around it; nothing, if it cannot happen. -/
def deliver (s : System) : DeliveryEvent → Option System
  | .loader e => s.step (.loader e)
  | .targetTaken => s.targets.pop?.map fun popped => { s with targets := popped.2 }
  | .targetsClosed => some { s with targets := s.targets.close }
  | .reportPut r => (s.reports.push? r).map fun reports => { s with reports := reports }
  | .reportTaken => s.reports.pop?.map fun popped => { s with reports := popped.2 }
  | .reportsClosed => some { s with reports := s.reports.close }
  | .signalGiven => some { s with shutdown := s.shutdown.trigger.1 }

/-- A loader at some place in its work, at channels that are open and empty. -/
def around (rest : System) (capacity reportCapacity : Nat) (l : Loader) : System :=
  { rest with
    loader := l
    targets := .ofCapacity capacity
    reports := .ofCapacity reportCapacity
    shutdown := Shutdown.fresh.subscribe }

/-- What holds of a loader with its delivery, of its channels and of the signal. -/
structure Delivers (size : Nat) (s : System) (d : Delivery) : Prop where
  loader : s.loader.Delivers size d.log d.stops
  passed : s.targets.isOpen → d.taken ++ s.targets.queue = d.log.handed
  sent : s.reports.isOpen → d.reported.Sublist (d.collected ++ s.reports.queue)
  counted : s.reports.isOpen →
    (Totals.sum d.reported).claimed + s.loader.unreported = d.log.claimed.length
  signal : s.shutdown.waitsFor 0 → s.shutdown.triggered
  heard : .signalled ∈ d.stops → s.shutdown.triggered
  turned : .turnedAway ∈ d.stops → s.targets.isOpen = false

theorem delivers_around (rest : System) (size capacity reportCapacity : Nat) :
    (rest.around capacity reportCapacity (.fresh size)).Delivers size .empty where
  loader := Loader.delivers_fresh size
  passed _ := rfl
  sent _ := List.Sublist.refl _
  counted _ := rfl
  signal h := nomatch h
  heard h := nomatch h
  turned h := nomatch h

section Steps

/-- An event at the loader, seen from the loader. -/
theorem Moves.of_loader (h : s.Moves (.loader e) s') : s.loader.Moves e s'.loader := by
  cases h <;> assumption

/-- What an event at the loader does to the channel of targets. -/
theorem Moves.targets_of_loader (h : s.Moves (.loader e) s') (log : LoaderLog) :
    s'.targets.isOpen = s.targets.isOpen ∧
      ∃ more, s'.targets.queue = s.targets.queue ++ more ∧
        (log.note s.loader e).handed = log.handed ++ more := by
  cases h with
  | @handed l t hl ht hroom => exact ⟨rfl, [t], rfl, by rw [LoaderLog.note, ht]; rfl⟩
  | _ => exact ⟨rfl, [], (List.append_nil _).symm, (List.append_nil _).symm⟩

/-- What an event at the loader does to the channel of reports. -/
theorem Moves.reports_of_loader (h : s.Moves (.loader e) s') :
    s'.reports.isOpen = s.reports.isOpen ∧
      s'.reports.queue = s.reports.queue ++ s.loader.accepted e ∧
      (s.reports.isOpen → e = .reported false → s.loader.pending.toSend = []) := by
  cases h with
  | loaderOffered hl hreports =>
      obtain ⟨hqueue, hopen⟩ := offerReport_eq hreports
      exact ⟨hopen, hqueue, fun _ he => nomatch he⟩
  | loaderReported hl hreports =>
      obtain ⟨hqueue, hopen, hkept⟩ := lastReport_eq hreports
      exact ⟨hopen, hqueue, fun hopen he => hkept hopen (LoaderEvent.reported.inj he)⟩
  | _ => exact ⟨rfl, (List.append_nil _).symm, fun _ he => nomatch he⟩

/-- What an event at the loader does to the signal: the loader takes it when it is there. -/
theorem Moves.shutdown_of_loader (h : s.Moves (.loader e) s') :
    s'.shutdown = s.shutdown ∨
      s.shutdown.waitsFor 0 ∧ s'.shutdown.triggered = s.shutdown.triggered := by
  cases h with
  | signalled hl hsignal => exact .inr ⟨hsignal, Shutdown.triggered_receive _ _⟩
  | _ => exact .inl rfl

/-- A loader that is signalled was, and one that is turned away was. -/
theorem Moves.of_stop (h : s.Moves (.loader e) s') :
    (e.stop? = some .signalled → s.shutdown.waitsFor 0) ∧
      (e.stop? = some .turnedAway → s.targets.isOpen = false) := by
  cases h with
  | signalled hl hsignal => exact ⟨fun _ => hsignal, nofun⟩
  | loaderTurnedAway hl hclosed => exact ⟨nofun, fun _ => hclosed⟩
  | _ => exact ⟨nofun, nofun⟩

/-- **One event at the loader,** among its channels and the signal. -/
theorem Delivers.loader_step (h : s.Delivers size d) (hmoves : s.Moves (.loader e) s') :
    s'.Delivers size (d.noteLoader s.loader e) := by
  obtain ⟨htargets, more, hqueue, hhanded⟩ := hmoves.targets_of_loader d.log
  obtain ⟨hreports, hput, hkept⟩ := hmoves.reports_of_loader
  have htriggered : s.shutdown.triggered → s'.shutdown.triggered := by
    intro htriggered
    rcases hmoves.shutdown_of_loader with hsame | ⟨_, hsame⟩
    · rwa [hsame]
    · rwa [hsame]
  exact {
    loader := h.loader.step hmoves.of_loader
    passed := by
      intro hopen
      show d.taken ++ s'.targets.queue = (d.log.note s.loader e).handed
      rw [hqueue, hhanded, ← List.append_assoc, h.passed (htargets.symm.trans hopen)]
    sent := by
      intro hopen
      show (d.reported ++ s.loader.accepted e).Sublist (d.collected ++ s'.reports.queue)
      rw [hput, ← List.append_assoc]
      exact (h.sent (hreports.symm.trans hopen)).append (List.Sublist.refl _)
    counted := by
      intro hopen
      rw [hreports] at hopen
      exact hmoves.of_loader.counted (h.counted hopen) (hkept hopen)
    signal := by
      intro hsignal
      rcases hmoves.shutdown_of_loader with hsame | ⟨hwaits, hsame⟩
      · rw [hsame] at hsignal ⊢
        exact h.signal hsignal
      · rw [hsame]
        exact h.signal hwaits
    heard := by
      intro hmem
      rcases List.mem_append.1 hmem with hmem | hmem
      · exact htriggered (h.heard hmem)
      · exact htriggered (h.signal (hmoves.of_stop.1 (Option.mem_toList.1 hmem)))
    turned := by
      intro hmem
      rcases List.mem_append.1 hmem with hmem | hmem
      · exact htargets.trans (h.turned hmem)
      · exact htargets.trans (hmoves.of_stop.2 (Option.mem_toList.1 hmem)) }

/-- **One event** at a loader or around it. -/
theorem Delivers.step (h : s.Delivers size d) {event : DeliveryEvent}
    (hstep : s.deliver event = some s') : s'.Delivers size (d.note s event) := by
  cases event with
  | loader e => exact h.loader_step (loader_moves_of_step hstep)
  | targetTaken =>
      obtain ⟨⟨t, targets⟩, hpop, rfl⟩ := Option.map_eq_some_iff.1 hstep
      obtain ⟨rest, hqueue, rfl⟩ := Channel.pop?_eq_some_iff.1 hpop
      refine { h with passed := ?_ }
      intro hopen
      show d.taken ++ s.targets.queue.head?.toList ++ rest = d.log.handed
      rw [← h.passed hopen, hqueue, List.append_assoc]
      rfl
  | targetsClosed =>
      obtain rfl := Option.some.inj hstep
      exact { h with
        passed := fun hopen => nomatch hopen
        turned := fun _ => rfl }
  | reportPut r =>
      obtain ⟨reports, hpush, rfl⟩ := Option.map_eq_some_iff.1 hstep
      obtain ⟨_, rfl⟩ := Channel.push?_eq_some_iff.1 hpush
      refine { h with sent := ?_ }
      intro hopen
      show d.reported.Sublist (d.collected ++ (s.reports.queue ++ [r]))
      rw [← List.append_assoc]
      exact (h.sent hopen).trans (List.sublist_append_left _ _)
  | reportTaken =>
      obtain ⟨⟨r, reports⟩, hpop, rfl⟩ := Option.map_eq_some_iff.1 hstep
      obtain ⟨rest, hqueue, rfl⟩ := Channel.pop?_eq_some_iff.1 hpop
      refine { h with sent := ?_ }
      intro hopen
      show d.reported.Sublist (d.collected ++ s.reports.queue.head?.toList ++ rest)
      have hsent := h.sent hopen
      rw [hqueue] at hsent
      rw [hqueue, List.append_assoc]
      exact hsent
  | reportsClosed =>
      obtain rfl := Option.some.inj hstep
      exact { h with
        sent := fun hopen => nomatch hopen
        counted := fun hopen => nomatch hopen }
  | signalGiven =>
      obtain rfl := Option.some.inj hstep
      have htriggered := s.shutdown.triggered_trigger
      exact { h with
        signal := fun _ => htriggered
        heard := fun _ => htriggered }

end Steps

section Going

/-- The loader waits for room in a channel from which somebody may yet take something. -/
def loaderWaits (s : System) : Prop :=
  (s.loader.next?.isSome ∧ s.targets.isOpen ∧ s.targets.room = 0 ∧
    s.shutdown.waitsFor 0 = false) ∨
  (s.loader.phase = .reporting ∧ s.reports.isOpen ∧ s.reports.room = 0)

/-- Something can happen to the loader that does not tear it down. -/
def loaderGoesOn (s : System) : Prop := ∃ e, e ≠ .tornDown ∧ (s.step (.loader e)).isSome

/-- A signal is heard wherever the loader looks for it. -/
theorem isSome_signalled (hwatchful : s.loader.isWatchful) (hsignal : s.shutdown.waitsFor 0) :
    (s.step (.loader .signalled)).isSome :=
  isSome_of_moves (.signalled (.signalled hwatchful) hsignal)

/-- A watchful loader without a signal can look for one. -/
theorem isSome_looked (hwatchful : s.loader.isWatchful) (hlooked : s.loader.hasLooked = false)
    (hsignal : s.shutdown.waitsFor 0 = false) : (s.step (.loader .looked)).isSome :=
  isSome_of_moves (.looked (.looked hwatchful hlooked) hsignal)

/-- Whatever a claim gives may happen to a loader that claims. -/
theorem isSome_claimed (hphase : s.loader.phase = .claiming) (hlooked : s.loader.hasLooked)
    {batch : List Target} (hsize : batch.length ≤ s.loader.batchSize) :
    (s.step (.loader (.claimed batch))).isSome := by
  cases batch with
  | nil => exact isSome_of_moves (.claimed (.idled hphase hlooked))
  | cons t rest =>
      exact isSome_of_moves (.claimed (.claimed hphase hlooked (List.cons_ne_nil _ _) hsize))

/-- A claim of a loader that has looked can fail, in whatever way. -/
theorem isSome_claimFailed (hphase : s.loader.phase = .claiming) (hlooked : s.loader.hasLooked)
    (e : StoreError) : (s.step (.loader (.claimFailed e))).isSome :=
  isSome_of_moves (.claimFailed (.claimFailed hphase hlooked e))

/-- A target is handed on as soon as there is room for it, or turned away. -/
theorem goesOn_of_handing {t : Target} {rest : List Target}
    (hphase : s.loader.phase = .handing (t :: rest)) (hlooked : s.loader.hasLooked)
    (hroom : ¬ (s.targets.isOpen ∧ s.targets.room = 0)) : s.loaderGoesOn := by
  cases hopen : s.targets.isOpen with
  | true =>
      have hpos := Nat.pos_of_ne_zero fun hnone => hroom ⟨hopen, hnone⟩
      have hnext : s.loader.next? = some t := by simp [Loader.next?, hphase]
      exact ⟨.handed, by decide, isSome_of_moves (.handed (.handed hphase hlooked) hnext hpos)⟩
  | false =>
      exact ⟨.turnedAway, by decide,
        isSome_of_moves (.loaderTurnedAway (.turnedAway hphase hlooked) hopen)⟩

/-- A last report is made as soon as there is room for it, or nobody to take it. -/
theorem goesOn_of_reporting (hphase : s.loader.phase = .reporting)
    (hroom : ¬ (s.reports.isOpen ∧ s.reports.room = 0)) : s.loaderGoesOn := by
  have hmade : ∃ accepted reports,
      lastReport s.reports s.loader.pending accepted = some reports := by
    unfold lastReport
    split
    · exact ⟨true, _, rfl⟩
    · cases hopen : s.reports.isOpen with
      | true =>
          have hpos := Nat.pos_of_ne_zero fun hnone => hroom ⟨hopen, hnone⟩
          exact ⟨true, _, Channel.push?_eq_some_iff.2 ⟨hpos, rfl⟩⟩
      | false => exact ⟨false, s.reports, by simp⟩
  obtain ⟨accepted, reports, hreports⟩ := hmade
  exact ⟨.reported accepted, nofun,
    isSome_of_moves (.loaderReported (.reported hphase accepted) hreports)⟩

/-- **A loader goes on** as long as it is not gone, unless it waits for room. -/
theorem Delivers.goesOn (h : s.Delivers size d) (hthere : s.loader.isGone = false) :
    s.loaderWaits ∨ s.loaderGoesOn := by
  by_cases hwatchful : s.loader.isWatchful
  · cases hsignal : s.shutdown.waitsFor 0 with
    | true => exact .inr ⟨.signalled, by decide, isSome_signalled hwatchful hsignal⟩
    | false =>
        cases hlooked : s.loader.hasLooked with
        | false => exact .inr ⟨.looked, by decide, isSome_looked hwatchful hlooked hsignal⟩
        | true =>
            cases hphase : s.loader.phase with
            | claiming =>
                exact .inr ⟨.claimed [], by decide, isSome_claimed hphase hlooked (Nat.zero_le _)⟩
            | resting =>
                exact .inr ⟨.rested, by decide,
                  isSome_of_moves (.rested (.rested hphase hlooked))⟩
            | handing targets =>
                obtain ⟨t, targets, rfl⟩ := List.exists_cons_of_ne_nil (h.loader.next _ hphase)
                by_cases hfull : s.targets.isOpen ∧ s.targets.room = 0
                · exact .inl (.inl ⟨by simp [Loader.next?, hphase], hfull.1, hfull.2, hsignal⟩)
                · exact .inr (goesOn_of_handing hphase hlooked hfull)
            | offering | reporting | ended | tornDown =>
                simp [Loader.isWatchful, hphase] at hwatchful
  · cases hphase : s.loader.phase with
    | offering batch =>
        exact .inr ⟨.offered false, by decide,
          isSome_of_moves (.loaderOffered (.offered hphase false) (offerReport_false _ _))⟩
    | reporting =>
        by_cases hfull : s.reports.isOpen ∧ s.reports.room = 0
        · exact .inl (.inr ⟨hphase, hfull⟩)
        · exact .inr (goesOn_of_reporting hphase hfull)
    | claiming | resting | handing => simp [Loader.isWatchful, hphase] at hwatchful
    | ended | tornDown => simp [Loader.isGone, hphase] at hthere

end Going

section Claims

theorem deliver_of_moves {e : LoaderEvent} (h : s.Moves (.loader e) s') :
    s.deliver (.loader e) = some s' := loader_step_of_moves h

/-- A loader with its delivery after an event at it or around it. -/
def delivered (now : System × Delivery) (event : DeliveryEvent) : Option (System × Delivery) :=
  noting deliver Delivery.note now event

theorem delivered_of {event : DeliveryEvent} (h : s.deliver event = some s') (d : Delivery) :
    delivered (s, d) event = some (s', d.note s event) := noting_eq_some.2 ⟨h, rfl⟩

variable (rest : System) {capacity : Nat} (hroom : 0 < capacity) (reportCapacity : Nat) {size : Nat}
include hroom

/-- A batch is handed on, as long as its targets are taken. -/
theorem exists_run_handing (l : Loader) (batch : List Target) (d : Delivery) :
    ∃ events d', Run delivered (rest.around capacity reportCapacity (l.handing batch), d) events
      (rest.around capacity reportCapacity (l.enter .claiming), d') ∧
        d'.log.claims = d.log.claims := by
  induction batch generalizing d with
  | nil => exact ⟨[], d, .nil, rfl⟩
  | cons t batch ih =>
      have hlooked : deliver (rest.around capacity reportCapacity (l.handing (t :: batch)))
          (.loader .looked) = some (rest.around capacity reportCapacity
            { l.handing (t :: batch) with hasLooked := true }) := rfl
      have hhanded : deliver (rest.around capacity reportCapacity
            { l.handing (t :: batch) with hasLooked := true }) (.loader .handed) =
          some { rest.around capacity reportCapacity (l.handing batch) with
            targets := ⟨capacity, [t], true⟩ } := by
        have hrest : Loader.handing { l.handing (t :: batch) with hasLooked := true } batch =
            l.handing batch := by cases batch <;> rfl
        have hmoves : Loader.Moves { l.handing (t :: batch) with hasLooked := true } .handed
            (l.handing batch) := hrest ▸ .handed rfl rfl
        exact deliver_of_moves (.handed hmoves rfl hroom)
      have htaken : deliver { rest.around capacity reportCapacity (l.handing batch) with
            targets := ⟨capacity, [t], true⟩ } .targetTaken =
          some (rest.around capacity reportCapacity (l.handing batch)) := rfl
      obtain ⟨events, d', hrun, hclaims⟩ := ih _
      exact ⟨_, d', (((Run.single (delivered_of hlooked d)).snoc (delivered_of hhanded _)).snoc
        (delivered_of htaken _)).append hrun, hclaims⟩

/-- A claim that gives a batch is followed by the next one. -/
theorem exists_run_claimed {batch : List Target} (hsize : batch.length ≤ size) (n : Nat)
    (d : Delivery) :
    ∃ n' events d', Run delivered
      (rest.around capacity reportCapacity ⟨size, .claiming, false, n, none⟩, d) events
      (rest.around capacity reportCapacity ⟨size, .claiming, false, n', none⟩, d') ∧
        d'.log.claims = d.log.claims ++ [batch] := by
  have hlooked : deliver (rest.around capacity reportCapacity ⟨size, .claiming, false, n, none⟩)
      (.loader .looked) =
        some (rest.around capacity reportCapacity ⟨size, .claiming, true, n, none⟩) := rfl
  cases batch with
  | nil =>
      have hidled : deliver (rest.around capacity reportCapacity ⟨size, .claiming, true, n, none⟩)
          (.loader (.claimed [])) =
            some (rest.around capacity reportCapacity ⟨size, .resting, false, n, none⟩) := rfl
      have hlooked' : deliver (rest.around capacity reportCapacity ⟨size, .resting, false, n, none⟩)
          (.loader .looked) =
            some (rest.around capacity reportCapacity ⟨size, .resting, true, n, none⟩) := rfl
      have hrested : deliver (rest.around capacity reportCapacity ⟨size, .resting, true, n, none⟩)
          (.loader .rested) =
            some (rest.around capacity reportCapacity ⟨size, .claiming, false, n, none⟩) := rfl
      exact ⟨n, _, _, (((Run.single (delivered_of hlooked d)).snoc (delivered_of hidled _)).snoc
        (delivered_of hlooked' _)).snoc (delivered_of hrested _), rfl⟩
  | cons t batch =>
      have hclaimed : deliver (rest.around capacity reportCapacity ⟨size, .claiming, true, n, none⟩)
          (.loader (.claimed (t :: batch))) = some (rest.around capacity reportCapacity
            ⟨size, .offering (t :: batch), false, n + (t :: batch).length, none⟩) :=
        deliver_of_moves (.claimed (.claimed rfl rfl (List.cons_ne_nil _ _) hsize))
      have hoffered : deliver (rest.around capacity reportCapacity
            ⟨size, .offering (t :: batch), false, n + (t :: batch).length, none⟩)
          (.loader (.offered false)) = some (rest.around capacity reportCapacity
            (Loader.handing ⟨size, .offering (t :: batch), false, n + (t :: batch).length, none⟩
              (t :: batch))) :=
        deliver_of_moves (.loaderOffered (.offered rfl false) (offerReport_false _ _))
      obtain ⟨events, d', hrun, hclaims⟩ := exists_run_handing rest hroom reportCapacity
        ⟨size, .offering (t :: batch), false, n + (t :: batch).length, none⟩ (t :: batch) _
      exact ⟨_, _, d', (((Run.single (delivered_of hlooked d)).snoc (delivered_of hclaimed _)).snoc
        (delivered_of hoffered _)).append hrun, hclaims⟩

/-- All that claims give is handed on, as long as the targets are taken. -/
theorem exists_run_of_batches {batches : List (List Target)}
    (hsize : ∀ batch ∈ batches, batch.length ≤ size) (n : Nat) (d : Delivery) :
    ∃ n' events d', Run delivered
      (rest.around capacity reportCapacity ⟨size, .claiming, false, n, none⟩, d) events
      (rest.around capacity reportCapacity ⟨size, .claiming, false, n', none⟩, d') ∧
        d'.log.claims = d.log.claims ++ batches := by
  induction batches generalizing n d with
  | nil => exact ⟨n, [], d, .nil, (List.append_nil _).symm⟩
  | cons batch batches ih =>
      obtain ⟨hbatch, hbatches⟩ := List.forall_mem_cons.1 hsize
      obtain ⟨n₁, events₁, d₁, hrun₁, hclaims₁⟩ :=
        exists_run_claimed rest hroom reportCapacity hbatch n d
      obtain ⟨n₂, events₂, d₂, hrun₂, hclaims₂⟩ := ih hbatches n₁ d₁
      refine ⟨n₂, _, d₂, hrun₁.append hrun₂, ?_⟩
      rw [hclaims₂, hclaims₁, List.append_assoc]
      rfl

/-- **Whatever the claims give,** batches and an error after them, a loader can go through
with it. -/
theorem exists_run_of_claims (hreports : 0 < reportCapacity) {batches : List (List Target)}
    (hsize : ∀ batch ∈ batches, batch.length ≤ size) (e : StoreError) :
    ∃ events s d, Run delivered (rest.around capacity reportCapacity (.fresh size), .empty) events
      (s, d) ∧ d.log.claims = batches ∧ s.loader.result? = some (.error (.claim e)) := by
  obtain ⟨n, events, d, hrun, hclaims⟩ :=
    exists_run_of_batches rest hroom reportCapacity hsize 0 .empty
  have hlooked : deliver (rest.around capacity reportCapacity ⟨size, .claiming, false, n, none⟩)
      (.loader .looked) =
        some (rest.around capacity reportCapacity ⟨size, .claiming, true, n, none⟩) := rfl
  have hfailed : deliver (rest.around capacity reportCapacity ⟨size, .claiming, true, n, none⟩)
      (.loader (.claimFailed e)) =
        some (rest.around capacity reportCapacity ⟨size, .reporting, false, n, some e⟩) := rfl
  obtain ⟨reports, hput⟩ : ∃ reports,
      lastReport (.ofCapacity reportCapacity) (.claimed n) true = some reports := by
    unfold lastReport
    split
    · exact ⟨_, rfl⟩
    · exact ⟨_, if_pos hreports⟩
  have hreported : deliver (rest.around capacity reportCapacity
        ⟨size, .reporting, false, n, some e⟩) (.loader (.reported true)) =
      some ({ rest.around capacity reportCapacity ⟨size, .ended, false, 0, some e⟩ with
        reports := reports }.endStage .loader (some (.error (.claim e)))) :=
    congrArg (Option.map _) hput
  exact ⟨_, _, _, ((hrun.snoc (delivered_of hlooked _)).snoc (delivered_of hfailed _)).snoc
    (delivered_of hreported _), hclaims, rfl⟩

end Claims

/-- What is not handed on is the end of the last batch. -/
theorem Delivers.left (h : s.Delivers size d) :
    ∃ left, d.log.claimed = d.log.handed ++ left ∧ left <:+ d.log.claims.getLastD [] := by
  obtain ⟨left, hclaimed, _⟩ := h.loader.hands.left
  refine ⟨left, hclaimed, ?_⟩
  have hearlier := h.loader.earlier
  rw [LoaderLog.claimed] at hclaimed
  rcases List.eq_nil_or_concat d.log.claims with hnone | ⟨batches, batch, hclaims⟩
  · rw [hnone, List.flatten_nil] at hclaimed
    rw [(List.append_eq_nil_iff.1 hclaimed.symm).2]
    exact List.nil_suffix
  · rw [List.concat_eq_append] at hclaims
    rw [hclaims, List.dropLast_concat] at hearlier
    obtain ⟨begun, hbegun⟩ := hearlier
    rw [hclaims, List.flatten_append, List.flatten_singleton, ← hbegun,
      List.append_assoc] at hclaimed
    rw [hclaims, List.getLastD_concat, List.append_cancel_left hclaimed]
    exact List.suffix_append _ _

/-- A loader that has met a reason to stop has it to report, or it has ended as the reason
has it. -/
theorem Delivers.ends (h : s.Delivers size d) {reason : StopReason} (hmem : reason ∈ d.stops) :
    d.stops = [reason] ∧ (s.loader.phase = .reporting ∨ s.loader.result? = some reason.result) := by
  rcases h.loader.reason with ⟨_, hnone, _⟩ | ⟨hphase, reason', hstops, hfailure⟩
  · rw [hnone] at hmem
    cases hmem
  · rw [hstops] at hmem
    obtain rfl := List.mem_singleton.1 hmem
    refine ⟨hstops, hphase.imp_right fun hended => ?_⟩
    rw [Loader.result?, hended, hfailure]
    cases reason <;> rfl

/-- A loader that has ended has stopped for some reason. -/
theorem Delivers.stops_ne_nil (h : s.Delivers size d) (hended : s.loader.phase = .ended) :
    d.stops ≠ [] := by
  rcases h.loader.reason with ⟨hwork, _⟩ | ⟨_, reason, hstops, _⟩
  · rcases hwork with hwork | htorn
    · simp [Loader.isAtWork, hended] at hwork
    · rw [hended] at htorn
      cases htorn
  · rw [hstops]
    exact List.cons_ne_nil _ _

/-- **A loader hands on what it claims.**  Let its claims give what they may, and let the
signal be given, the channels be closed and messages be taken out of them at any moments.
Then at every moment it has handed on the first of the targets that it claimed, and these
are the ones that were taken from it or wait to be.  It only claims when all that it claimed
is handed on and there is no reason to stop.  When it has ended there was such a reason, one
alone, and it has ended as this has it: with the error of the claim that failed, and then
all that was claimed before is handed on; or without an error, because the signal was given
or because nobody takes targets any more.  What is not handed on is the end of the last
batch.  Its reports that were accepted are in their channel or were taken from it, and as
long as this is open they and what is still to be reported are as many as the targets that
it claimed; at its end nothing is still to be reported.  It goes on as long as it is not
gone, unless it waits for room, and whatever a claim gives may happen to it; so for any
batches and an error after them there is a course of things in which its claims give them
and it ends with the error. -/
theorem loader_hands_on_what_it_claims (rest : System) (size capacity reportCapacity : Nat) :
    (∀ events s d,
      Run delivered (rest.around capacity reportCapacity (.fresh size), .empty) events (s, d) →
      (d.log.handed <+: d.log.claimed ∧
        (s.targets.isOpen → d.taken ++ s.targets.queue = d.log.handed)) ∧
      (s.loader.phase = .claiming → d.log.handed = d.log.claimed ∧ d.stops = []) ∧
      (s.loader.phase = .ended → d.stops ≠ []) ∧
      (∀ reason ∈ d.stops, d.stops = [reason] ∧
        (s.loader.phase = .reporting ∨ s.loader.result? = some reason.result)) ∧
      (∀ e, .claimFailed e ∈ d.stops → d.log.handed = d.log.claimed) ∧
      (.signalled ∈ d.stops → s.shutdown.triggered) ∧
      (.turnedAway ∈ d.stops → s.targets.isOpen = false) ∧
      (∃ left, d.log.claimed = d.log.handed ++ left ∧ left <:+ d.log.claims.getLastD []) ∧
      (s.reports.isOpen → d.reported.Sublist (d.collected ++ s.reports.queue) ∧
        (Totals.sum d.reported).claimed + s.loader.unreported = d.log.claimed.length) ∧
      (s.loader.phase = .ended → s.loader.unreported = 0) ∧
      (s.loader.isGone = false → s.loaderWaits ∨ s.loaderGoesOn) ∧
      (s.loader.phase = .claiming → s.loader.hasLooked →
        (∀ batch : List Target, batch.length ≤ size →
          (s.step (.loader (.claimed batch))).isSome) ∧
        ∀ e, (s.step (.loader (.claimFailed e))).isSome)) ∧
    (0 < capacity → 0 < reportCapacity → ∀ (batches : List (List Target)) (e : StoreError),
      (∀ batch ∈ batches, batch.length ≤ size) →
      ∃ events s d,
        Run delivered (rest.around capacity reportCapacity (.fresh size), .empty) events (s, d) ∧
          d.log.claims = batches ∧ s.loader.result? = some (.error (.claim e))) := by
  refine ⟨?_, fun hroom hreports batches e hsize =>
    exists_run_of_claims rest hroom reportCapacity hreports hsize e⟩
  intro events s d hrun
  have h : s.Delivers size d := by
    have hkept := hrun.invariant (P := fun now => now.1.Delivers size now.2)
      (delivers_around rest size capacity reportCapacity) (by
        rintro ⟨s, d⟩ event ⟨s', d'⟩ h hstep
        obtain ⟨hstep, hnote⟩ := noting_eq_some.1 hstep
        obtain rfl : d' = d.note s event := hnote
        exact h.step hstep)
    exact hkept
  obtain ⟨left, hclaimed, hsuffix⟩ := h.left
  refine ⟨⟨⟨left, hclaimed.symm⟩, h.passed⟩, fun hphase => ?_, h.stops_ne_nil, fun _ => h.ends,
    h.loader.failed, h.heard, h.turned, ⟨left, hclaimed, hsuffix⟩,
    fun hopen => ⟨h.sent hopen, h.counted hopen⟩, h.loader.cleared, h.goesOn,
    fun hphase hlooked => ⟨fun batch hbatch => ?_, isSome_claimFailed hphase hlooked⟩⟩
  · exact ⟨h.loader.hands.of_claiming hphase,
      (h.loader.reason.of_isAtWork (by simp [Loader.isAtWork, hphase])).1⟩
  · exact isSome_claimed hphase hlooked (h.loader.hands.batchSize ▸ hbatch)

/-- Of two targets claimed at once the second is left, when the first fills the channel and
the signal is given then; both were reported. -/
example (rest : System) (t u : Target) :
    ([.loader .looked, .loader (.claimed [t, u]), .loader (.offered true), .loader .looked,
      .loader .handed, .loader .looked, .signalGiven, .loader .signalled,
      .loader (.reported false)].foldlM delivered (rest.around 1 1 (.fresh 2), .empty)).map
        (fun now => (now.1.loader.result?, now.2.log.handed, now.2.reported)) =
      some (some (.ok ()), [t], [.claimed 2]) := rfl

end System

end PeerWatch
