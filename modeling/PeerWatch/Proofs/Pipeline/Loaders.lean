import PeerWatch.Pipeline.Loader

/-!
# A loader and its log

A loader hands on the targets of each batch it claimed, in their order, and
claims the next batch when it has handed on the whole of one.  So the targets
it handed on are the first ones it claimed.  When it stops, because of the
signal or because nobody takes targets any more, the rest of one batch is all
that it leaves behind.

* `Loader.Moves`, `Loader.moves_of_step`, `Loader.step_of_moves` — all that can happen to
  a loader;
* `LoaderLog` — what a loader claimed and handed on;
* `Loader.Hands`, `Loader.Hands.step` — what it leaves behind.
-/

namespace PeerWatch

/-- What a loader has done. -/
structure LoaderLog where
  /-- The batches that its claims gave, also the empty ones. -/
  claims : List (List Target)
  handed : List Target
deriving DecidableEq

namespace LoaderLog

def empty : LoaderLog := ⟨[], []⟩

/-- One more event at a loader. -/
def note (log : LoaderLog) (l : Loader) : LoaderEvent → LoaderLog
  | .claimed batch => { log with claims := log.claims ++ [batch] }
  | .handed => { log with handed := log.handed ++ l.next?.toList }
  | _ => log

/-- The targets claimed. -/
def claimed (log : LoaderLog) : List Target := log.claims.flatten

end LoaderLog

namespace Loader

variable {l l' : Loader} {e : LoaderEvent}

/-- Whether the loader looks for the shutdown signal before what it does next. -/
def isWatchful (l : Loader) : Bool :=
  match l.phase with
  | .claiming | .resting | .handing _ => true
  | .offering _ | .reporting | .ended | .tornDown => false

/-- All that can happen to a loader. -/
inductive Moves (l : Loader) : LoaderEvent → Loader → Prop
  | looked (h : l.isWatchful) (hlooked : l.hasLooked = false) :
    Moves l .looked { l with hasLooked := true }
  | signalled (h : l.isWatchful) : Moves l .signalled (l.enter .reporting)
  | idled (h : l.phase = .claiming) (hlooked : l.hasLooked) :
    Moves l (.claimed []) (l.enter .resting)
  | claimed (h : l.phase = .claiming) (hlooked : l.hasLooked) {batch : List Target}
    (hbatch : batch ≠ []) (hsize : batch.length ≤ l.batchSize) :
    Moves l (.claimed batch)
      { l.enter (.offering batch) with unreported := l.unreported + batch.length }
  | claimFailed (h : l.phase = .claiming) (hlooked : l.hasLooked) (e : StoreError) :
    Moves l (.claimFailed e) { l.enter .reporting with failure := some e }
  | tornDown (h : l.phase = .claiming) (hlooked : l.hasLooked) :
    Moves l .tornDown (l.enter .tornDown)
  | offered {batch : List Target} (h : l.phase = .offering batch) (accepted : Bool) :
    Moves l (.offered accepted)
      ({ l with unreported := if accepted then 0 else l.unreported }.handing batch)
  | handed {t : Target} {rest : List Target} (h : l.phase = .handing (t :: rest))
    (hlooked : l.hasLooked) : Moves l .handed (l.handing rest)
  | turnedAway {t : Target} {rest : List Target} (h : l.phase = .handing (t :: rest))
    (hlooked : l.hasLooked) : Moves l .turnedAway (l.enter .reporting)
  | rested (h : l.phase = .resting) (hlooked : l.hasLooked) : Moves l .rested (l.enter .claiming)
  | reported (h : l.phase = .reporting) (accepted : Bool) :
    Moves l (.reported accepted) { l.enter .ended with unreported := 0 }

/-- An event of a loader is one of the ways in which it can go. -/
theorem moves_of_step (h : l.step e = some l') : l.Moves e l' := by
  unfold step at h
  split at h
  case h_1 hphase hlooked | h_2 hphase hlooked | h_3 hphase hlooked =>
    obtain rfl := Option.some.inj h
    exact .looked (by simp [isWatchful, hphase]) hlooked
  case h_4 hphase | h_5 hphase | h_6 hphase =>
    obtain rfl := Option.some.inj h
    exact .signalled (by simp [isWatchful, hphase])
  case h_7 hphase hlooked =>
    obtain rfl := Option.some.inj h
    exact .idled hphase hlooked
  case h_8 batch hbatch hphase hlooked =>
    split at h
    · next hsize =>
        obtain rfl := Option.some.inj h
        exact .claimed hphase hlooked hbatch hsize
    · cases h
  case h_9 e hphase hlooked =>
    obtain rfl := Option.some.inj h
    exact .claimFailed hphase hlooked e
  case h_10 hphase hlooked =>
    obtain rfl := Option.some.inj h
    exact .tornDown hphase hlooked
  case h_11 accepted batch hphase =>
    obtain rfl := Option.some.inj h
    exact .offered hphase accepted
  case h_12 hphase hlooked =>
    obtain rfl := Option.some.inj h
    exact .handed hphase hlooked
  case h_13 hphase hlooked =>
    obtain rfl := Option.some.inj h
    exact .turnedAway hphase hlooked
  case h_14 hphase hlooked =>
    obtain rfl := Option.some.inj h
    exact .rested hphase hlooked
  case h_15 accepted hphase =>
    obtain rfl := Option.some.inj h
    exact .reported hphase accepted
  case h_16 => cases h

/-- A loader goes each of these ways. -/
theorem step_of_moves (h : l.Moves e l') : l.step e = some l' := by
  cases h with
  | looked hwatchful hlooked | signalled hwatchful =>
      cases hphase : l.phase <;> simp_all [isWatchful, step]
  | claimed hphase hlooked hbatch hsize =>
      obtain ⟨t, batch, rfl⟩ := List.exists_cons_of_ne_nil hbatch
      simp only [step, hphase, hlooked]
      exact if_pos hsize
  | _ => simp only [step, *]

/-- A loader that is gone does nothing more. -/
theorem Moves.not_gone (h : l.Moves e l') : l.isGone = false := by
  cases h with
  | looked hwatchful | signalled hwatchful =>
      cases hphase : l.phase <;> simp_all [isWatchful, isGone]
  | _ => simp [isGone, *]

/-- A loader that is not gone has no result. -/
theorem result?_eq_none (h : l.isGone = false) : l.result? = none := by
  unfold result?
  cases hphase : l.phase <;> simp_all [isGone]

/-- The targets that a loader has claimed and will hand on, if nothing stops it. -/
def kept (l : Loader) : List Target :=
  match l.phase with
  | .offering batch => batch
  | .handing rest => rest
  | _ => []

/-- Whether a loader goes on claiming and handing on. -/
def isAtWork (l : Loader) : Bool :=
  match l.phase with
  | .claiming | .resting | .offering _ | .handing _ => true
  | .reporting | .ended | .tornDown => false

/-- A loader that looks for the signal is at work. -/
theorem isAtWork_of_isWatchful (h : l.isWatchful) : l.isAtWork := by
  unfold isWatchful at h
  unfold isAtWork
  split at h <;> simp_all

/-- **What a loader leaves behind.**  It handed on the first of the targets it
claimed; those it did not are no more than a batch, and as long as it is at work
they are the ones it keeps. -/
structure Hands (size : Nat) (l : Loader) (log : LoaderLog) : Prop where
  batchSize : l.batchSize = size
  left : ∃ left, log.claimed = log.handed ++ left ∧ left.length ≤ size ∧
    (l.isAtWork → left = l.kept)

section Steps

variable {size : Nat} {log : LoaderLog}

theorem hands_fresh (size : Nat) : (fresh size).Hands size .empty where
  batchSize := rfl
  left := ⟨[], rfl, Nat.zero_le _, fun _ => rfl⟩

/-- Handing on, a loader keeps what is left, and what it counted. -/
theorem handing_eq (l : Loader) (rest : List Target) :
    (l.handing rest).batchSize = l.batchSize ∧ (l.handing rest).kept = rest ∧
      (l.handing rest).unreported = l.unreported := by
  cases rest <;> exact ⟨rfl, rfl, rfl⟩

/-- A claim adds its targets to those claimed. -/
theorem claimed_claimed (log : LoaderLog) (l : Loader) (batch : List Target) :
    (log.note l (.claimed batch)).claimed = log.claimed ++ batch := by
  simp [LoaderLog.claimed, LoaderLog.note]

/-- What a loader leaves behind if it keeps all that it has not handed on. -/
theorem hands_of_kept (hsize : l.batchSize = size) (hclaimed : log.claimed = log.handed ++ l.kept)
    (hlength : l.kept.length ≤ size) : l.Hands size log :=
  ⟨hsize, l.kept, hclaimed, hlength, fun _ => rfl⟩

/-- As long as it is at work, a loader keeps all that it has not handed on. -/
theorem Hands.kept (h : l.Hands size log) (hwork : l.isAtWork) :
    log.claimed = log.handed ++ l.kept ∧ l.kept.length ≤ size := by
  obtain ⟨left, hclaimed, hlength, hleft⟩ := h.left
  obtain rfl := hleft hwork
  exact ⟨hclaimed, hlength⟩

/-- A loader that stops leaves behind what it kept. -/
theorem Hands.of_stopped (h : l.Hands size log) (hsize : l'.batchSize = l.batchSize)
    (hstopped : l'.isAtWork = false) : l'.Hands size log := by
  obtain ⟨left, hclaimed, hlength, _⟩ := h.left
  refine ⟨hsize.trans h.batchSize, left, hclaimed, hlength, ?_⟩
  intro hwork
  rw [hstopped] at hwork
  cases hwork

/-- **One event** leaves no more behind. -/
theorem Hands.step (h : l.Hands size log) (hmoves : l.Moves e l') :
    l'.Hands size (log.note l e) := by
  cases hmoves with
  | looked hwatchful hlooked => exact ⟨h.batchSize, h.left⟩
  | signalled hwatchful => exact h.of_stopped rfl rfl
  | idled hphase hlooked =>
      obtain ⟨hclaimed, hlength⟩ := h.kept (by simp [isAtWork, hphase])
      simp only [Loader.kept, hphase] at hclaimed hlength
      refine hands_of_kept h.batchSize ?_ hlength
      rw [claimed_claimed, hclaimed, List.append_nil]
      rfl
  | @claimed hphase hlooked batch hbatch hsize =>
      obtain ⟨hclaimed, _⟩ := h.kept (by simp [isAtWork, hphase])
      simp only [Loader.kept, hphase, List.append_nil] at hclaimed
      rw [h.batchSize] at hsize
      refine hands_of_kept h.batchSize ?_ hsize
      rw [claimed_claimed, hclaimed]
      rfl
  | claimFailed hphase hlooked e => exact h.of_stopped rfl rfl
  | tornDown hphase hlooked => exact h.of_stopped rfl rfl
  | @offered batch hphase accepted =>
      obtain ⟨hclaimed, hlength⟩ := h.kept (by simp [isAtWork, hphase])
      simp only [Loader.kept, hphase] at hclaimed hlength
      obtain ⟨hsize, hkept, _⟩ :=
        handing_eq { l with unreported := if accepted then 0 else l.unreported } batch
      refine hands_of_kept (hsize.trans h.batchSize) ?_ ?_
      · rw [hkept]
        exact hclaimed
      · rw [hkept]
        exact hlength
  | @handed t rest hphase hlooked =>
      obtain ⟨hclaimed, hlength⟩ := h.kept (by simp [isAtWork, hphase])
      simp only [Loader.kept, hphase] at hclaimed hlength
      obtain ⟨hsize, hkept, _⟩ := handing_eq l rest
      refine hands_of_kept (hsize.trans h.batchSize) ?_ ?_
      · rw [hkept]
        show log.claimed = log.handed ++ l.next?.toList ++ rest
        rw [hclaimed, next?, hphase, List.append_assoc]
        rfl
      · rw [hkept]
        exact Nat.le_of_succ_le hlength
  | turnedAway hphase hlooked => exact h.of_stopped rfl rfl
  | rested hphase hlooked =>
      obtain ⟨hclaimed, hlength⟩ := h.kept (by simp [isAtWork, hphase])
      simp only [Loader.kept, hphase] at hclaimed hlength
      exact hands_of_kept h.batchSize hclaimed hlength
  | reported hphase accepted => exact h.of_stopped rfl rfl

end Steps

end Loader

end PeerWatch
