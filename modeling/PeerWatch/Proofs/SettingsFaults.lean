import Mathlib.Data.Finset.Card
import Mathlib.Data.List.Perm.Basic
import PeerWatch.Settings.Check

/-!
# Settings that make sense, and the faults of others

What a setting has to satisfy is a rule of its own, and a check finds the rules that are
broken, each once and in the order in which they stand, whatever else is wrong.  Among the
targets a fault is told of every blank address, and of every target whose identity one
before it has; so those that are told of an identity are as many as the targets that are
there beyond one for each identity, in whatever order they are listed.

* `Settings.MakesSense` — settings that can be used;
* `Settings.rules`, `Settings.checkScalars_eq` — the rules of single settings;
* `Settings.faultsAt`, `Settings.checkTargets_eq` — the faults of each target;
* `Settings.countP_isDuplicate`, `Settings.length_checkTargets` — how many there are;
* `Settings.faults_are_exact`.
-/

namespace PeerWatch

/-- Nobody is the owner of whom all bytes are zero. -/
theorem OwnerId.isNil_iff {owner : OwnerId} : owner.isNil ↔ owner = .nil := by
  obtain ⟨bytes, hlength⟩ := owner
  simp only [isNil, nil, OwnerId.mk.injEq, List.all_eq_true, decide_eq_true_eq,
    List.eq_replicate_iff, hlength, true_and]

namespace Settings

/-- A text with something in it that is not white space. -/
def HasText (text : String) : Prop := ∃ c ∈ text.toList, Text.isBlank c = false

instance (text : String) : Decidable (HasText text) :=
  inferInstanceAs (Decidable (∃ c ∈ text.toList, Text.isBlank c = false))

/-- Settings that can be used. -/
structure MakesSense (s : Settings) : Prop where
  batchSize : 0 < s.loader.batchSize
  idleBackoff : 0 < s.loader.idleBackoff
  concurrency : 0 < s.probe.concurrency
  timeout : 0 < s.probe.timeout
  owner : s.recorder.owner ≠ .nil
  chunkSize : 0 < s.recorder.chunkSize
  flushInterval : 0 < s.recorder.flushInterval
  capacity : 0 < s.channels.capacity
  storePath : HasText s.store.path
  statsInterval : 0 < s.observability.statsInterval
  metricsAddress : s.observability.metricsEnabled →
    (Net.SocketAddress.parse? s.observability.metricsAddress).isSome
  exportDays : s.archive.path.isSome → 0 < s.archive.days
  addresses : ∀ t ∈ s.targets, HasText t.address
  identities : (s.targets.map (·.id)).Nodup

section Rules

/-- What a setting has to satisfy, and what is wrong with it otherwise. -/
structure Rule where
  field : String
  Holds : Settings → Prop
  problem : Settings → Problem
  decides : DecidablePred Holds := by infer_instance

instance (r : Rule) : DecidablePred r.Holds := r.decides

/-- The fault of settings that break a rule. -/
def Rule.fault (r : Rule) (s : Settings) : Fault := ⟨r.field, r.problem s⟩

/-- A number has to be positive. -/
def Rule.positive (field : String) (value : Settings → Nat) : Rule where
  field := field
  Holds s := 0 < value s
  problem _ := .notPositive

/-- The owner has to be somebody. -/
def Rule.owner : Rule where
  field := "recorder.owner_id"
  Holds s := s.recorder.owner ≠ .nil
  problem _ := .noOwner

/-- The store has to have a path. -/
def Rule.storePath : Rule where
  field := "store.path"
  Holds s := HasText s.store.path
  problem _ := .blank

/-- Metrics that are shown have to be shown at an address. -/
def Rule.metricsAddress : Rule where
  field := "observability.metrics_address"
  Holds s := s.observability.metricsEnabled →
    (Net.SocketAddress.parse? s.observability.metricsAddress).isSome
  problem s := .notAnAddress s.observability.metricsAddress

/-- An export has to have days. -/
def Rule.exportDays : Rule where
  field := "export.days"
  Holds s := s.archive.path.isSome → 0 < s.archive.days
  problem _ := .notPositive

/-- The rules of single settings. -/
def rules : List Rule :=
  [.positive "loader.batch_size" (·.loader.batchSize),
   .positive "loader.idle_backoff_ms" (·.loader.idleBackoff),
   .positive "probe.concurrency" (·.probe.concurrency),
   .positive "probe.timeout_ms" (·.probe.timeout),
   .owner,
   .positive "recorder.chunk_size" (·.recorder.chunkSize),
   .positive "recorder.flush_interval_ms" (·.recorder.flushInterval),
   .positive "channels.capacity" (·.channels.capacity),
   .storePath,
   .positive "observability.stats_interval_secs" (·.observability.statsInterval),
   .metricsAddress,
   .exportDays]

/-- The rules that settings break. -/
def broken (s : Settings) : List Rule := rules.filter fun r => ¬ r.Holds s

/-- The fault of a rule, if it is broken. -/
def Rule.faults (r : Rule) (s : Settings) : List Fault := if r.Holds s then [] else [r.fault s]

/-- The rules that do not hold and the faults they complain of, in one order. -/
theorem map_fault_filter (rs : List Rule) (s : Settings) :
    (rs.filter fun r => ¬ r.Holds s).map (·.fault s) = rs.flatMap (·.faults s) := by
  induction rs with
  | nil => rfl
  | cons r rest ih =>
      by_cases hr : r.Holds s <;> simp_all [Rule.faults]

/-- A rule that is broken under a condition has its fault told under it. -/
theorem Rule.faults_eq_ite (r : Rule) {s : Settings} {p : Prop} [Decidable p]
    (h : p ↔ ¬ r.Holds s) : r.faults s = if p then [r.fault s] else [] := by
  unfold Rule.faults
  by_cases hholds : r.Holds s
  · rw [if_pos hholds, if_neg fun hp => h.1 hp hholds]
  · rw [if_neg hholds, if_pos (h.2 hholds)]

/-- A text is blank if it has nothing but white space. -/
theorem isAllBlank_iff {text : String} : Text.isAllBlank text.toList ↔ ¬ HasText text := by
  simp [Text.isAllBlank, HasText]

/-- The check of a text complains exactly of blank ones. -/
theorem checkNotBlank_eq (field text : String) :
    checkNotBlank field text = if HasText text then [] else [⟨field, .blank⟩] := by
  rw [checkNotBlank, ← ite_not]
  simp only [isAllBlank_iff, not_not]

/-- **Every rule that is broken** is told once, in the order of the rules. -/
theorem checkScalars_eq (s : Settings) : s.checkScalars = s.broken.map (·.fault s) := by
  have hpositive (field : String) (value : Settings → Nat) :
      (Rule.positive field value).faults s = checkPositive field (value s) :=
    Rule.faults_eq_ite (.positive field value) Nat.pos_iff_ne_zero.not_left.symm
  have howner : Rule.owner.faults s =
      if s.recorder.owner.isNil then [⟨"recorder.owner_id", .noOwner⟩] else [] :=
    Rule.faults_eq_ite .owner (OwnerId.isNil_iff.trans not_not.symm)
  have hpath : Rule.storePath.faults s = checkNotBlank "store.path" s.store.path :=
    Rule.faults_eq_ite .storePath isAllBlank_iff
  have hmetrics : Rule.metricsAddress.faults s =
      if s.observability.metricsEnabled
          && (Net.SocketAddress.parse? s.observability.metricsAddress).isNone then
        [⟨"observability.metrics_address", .notAnAddress s.observability.metricsAddress⟩]
      else [] :=
    Rule.faults_eq_ite .metricsAddress (by simp [Rule.metricsAddress])
  have hdays : Rule.exportDays.faults s =
      if s.archive.path.isSome then checkPositive "export.days" s.archive.days else [] :=
    (Rule.faults_eq_ite .exportDays (p := s.archive.path.isSome ∧ s.archive.days = 0)
      (by simp [Rule.exportDays])).trans (ite_and ..)
  rw [broken, map_fault_filter]
  simp only [checkScalars, rules, List.flatMap_cons, List.flatMap_nil, hpositive, howner, hpath,
    hmetrics, hdays, List.append_assoc, List.append_nil]

end Rules

section Targets

/-- The faults of the target at an index: its address is blank, and a target before it has
its identity. -/
def faultsAt (targets : List TargetSettings) (i : Nat) : List Fault :=
  match targets[i]? with
  | none => []
  | some t =>
    (if HasText t.address then [] else [⟨targetField i "address", .blank⟩])
    ++ (if ∃ j, j < i ∧ targets[j]?.map (·.id) = some t.id then
          [⟨targetField i "id", .duplicate t.id⟩]
        else [])

/-- Targets are checked one part after another. -/
theorem checkTargets_append (index : Nat) (seen : List TargetId) (first rest : List TargetSettings) :
    checkTargets index seen (first ++ rest) = checkTargets index seen first
      ++ checkTargets (index + first.length) ((first.map (·.id)).reverse ++ seen) rest := by
  induction first generalizing index seen with
  | nil => simp [checkTargets]
  | cons t first ih =>
      simp only [List.cons_append, checkTargets, ih, List.map_cons, List.reverse_cons,
        List.length_cons, List.append_assoc]
      rw [Nat.add_comm first.length 1, ← Nat.add_assoc]
      rfl

/-- The faults of a target do not depend on those that follow it. -/
theorem faultsAt_append (first rest : List TargetSettings) {i : Nat} (hi : i < first.length) :
    faultsAt (first ++ rest) i = faultsAt first i := by
  have hbefore : ∀ j, j ≤ i → (first ++ rest)[j]? = first[j]? := fun j hj =>
    List.getElem?_append_left (Nat.lt_of_le_of_lt hj hi)
  have hearlier (id : TargetId) : (∃ j, j < i ∧ (first ++ rest)[j]?.map (·.id) = some id) ↔
      ∃ j, j < i ∧ first[j]?.map (·.id) = some id :=
    exists_congr fun j => and_congr_right fun hj => by rw [hbefore j (Nat.le_of_lt hj)]
  simp only [faultsAt, hbefore i (Nat.le_refl i), hearlier]

/-- The identities of some targets are those found at their indices. -/
theorem mem_map_id_iff {targets : List TargetSettings} {id : TargetId} :
    id ∈ targets.map (·.id) ↔
      ∃ j, j < targets.length ∧ targets[j]?.map (·.id) = some id := by
  simp only [List.mem_iff_getElem?, List.getElem?_map]
  refine exists_congr fun j => ⟨fun h => ⟨?_, h⟩, And.right⟩
  obtain ⟨t, ht, -⟩ := Option.map_eq_some_iff.1 h
  exact (List.getElem?_eq_some_iff.1 ht).1

/-- **The faults of the targets** are those of each target, in the order of the targets. -/
theorem checkTargets_eq (targets : List TargetSettings) :
    checkTargets 0 [] targets = (List.range targets.length).flatMap (faultsAt targets) := by
  induction targets using List.reverseRecOn with
  | nil => rfl
  | append_singleton first t ih =>
      have hfirst : (List.range first.length).flatMap (faultsAt (first ++ [t])) =
          (List.range first.length).flatMap (faultsAt first) :=
        List.flatMap_congr fun i hi => faultsAt_append first [t] (List.mem_range.1 hi)
      have hlast : faultsAt (first ++ [t]) first.length =
          checkTargets first.length (first.map (·.id)).reverse [t] := by
        have hearlier : (∃ j, j < first.length ∧ (first ++ [t])[j]?.map (·.id) = some t.id) ↔
            (first.map (·.id)).reverse.contains t.id := by
          rw [List.contains_iff_mem, List.mem_reverse, mem_map_id_iff]
          exact exists_congr fun j => and_congr_right fun hj => by
            rw [List.getElem?_append_left hj]
        simp only [faultsAt, List.getElem?_concat_length, hearlier, checkTargets, checkNotBlank_eq,
          List.append_nil]
      rw [checkTargets_append, ih, List.length_append, List.length_singleton, List.range_succ,
        List.flatMap_append, hfirst, List.flatMap_singleton, hlast, Nat.zero_add, List.append_nil]

/-- Whether a fault is told of an identity that was listed before. -/
def Fault.isDuplicate (f : Fault) : Bool :=
  match f.problem with
  | .duplicate _ => true
  | _ => false

variable (index : Nat) (seen : List TargetId) (targets : List TargetSettings)

/-- A blank text is complained of once. -/
theorem countP_checkNotBlank (p : Fault → Bool) (field text : String) :
    (checkNotBlank field text).countP p =
      if HasText text then 0 else if p ⟨field, .blank⟩ then 1 else 0 := by
  rw [checkNotBlank_eq]
  split
  · rfl
  · exact List.countP_singleton

/-- **Duplicates** are told of all targets but one for each identity that is new. -/
theorem countP_isDuplicate :
    (checkTargets index seen targets).countP (·.isDuplicate)
      + ((targets.map (·.id)).toFinset ∪ seen.toFinset).card
      = targets.length + seen.toFinset.card := by
  induction targets generalizing index seen with
  | nil => simp [checkTargets]
  | cons t rest ih =>
      have hblank : (checkNotBlank (targetField index "address") t.address).countP
          (·.isDuplicate) = 0 := by
        rw [countP_checkNotBlank]
        split <;> rfl
      have hduplicate : [(⟨targetField index "id", .duplicate t.id⟩ : Fault)].countP
          (·.isDuplicate) = 1 := rfl
      have hrest := ih (index + 1) (t.id :: seen)
      rw [List.toFinset_cons, Finset.union_insert] at hrest
      rw [checkTargets, List.countP_append, List.countP_append, hblank, List.map_cons,
        List.toFinset_cons, Finset.insert_union, List.length_cons]
      by_cases hseen : t.id ∈ seen
      · rw [Finset.insert_eq_of_mem (List.mem_toFinset.2 hseen)] at hrest
        rw [if_pos (List.contains_iff_mem.2 hseen)]
        omega
      · rw [Finset.card_insert_of_notMem fun h => hseen (List.mem_toFinset.1 h)] at hrest
        rw [if_neg fun h => hseen (List.contains_iff_mem.1 h), List.countP_nil]
        omega

/-- All other faults are told of blank addresses. -/
theorem countP_not_isDuplicate :
    (checkTargets index seen targets).countP (fun f => !f.isDuplicate)
      = targets.countP fun t => ¬ HasText t.address := by
  induction targets generalizing index seen with
  | nil => rfl
  | cons t rest ih =>
      have hduplicate : (if seen.contains t.id then
          [(⟨targetField index "id", .duplicate t.id⟩ : Fault)] else []).countP
          (fun f => !f.isDuplicate) = 0 := by
        split <;> rfl
      rw [checkTargets, List.countP_append, List.countP_append, hduplicate, ih,
        countP_checkNotBlank, List.countP_cons]
      by_cases htext : HasText t.address
      · simp [htext]
      · simp [htext, Fault.isDuplicate, Nat.add_comm]

/-- **The number of faults** is told by the addresses and the identities, whatever the order. -/
theorem length_checkTargets :
    (checkTargets 0 [] targets).length + (targets.map (·.id)).toFinset.card
      = targets.countP (fun t => ¬ HasText t.address) + targets.length := by
  have hduplicates := countP_isDuplicate 0 [] targets
  have hblank := countP_not_isDuplicate 0 [] targets
  have hall := List.length_eq_countP_add_countP (·.isDuplicate) (l := checkTargets 0 [] targets)
  simp only [List.toFinset_nil, Finset.union_empty, Finset.card_empty, Nat.add_zero] at hduplicates
  simp only [Bool.not_eq_true, Bool.decide_eq_false] at hall
  omega

variable {targets}

/-- Targets have no fault if they have addresses and no two of them have one identity. -/
theorem checkTargets_eq_nil_iff :
    checkTargets 0 [] targets = [] ↔
      (∀ t ∈ targets, HasText t.address) ∧ (targets.map (·.id)).Nodup := by
  have hlength := length_checkTargets targets
  have hle := (targets.map (·.id)).toFinset_card_le
  have haddresses : targets.countP (fun t => ¬ HasText t.address) = 0 ↔
      ∀ t ∈ targets, HasText t.address := by
    simp [List.countP_eq_zero]
  have hidentities : (targets.map (·.id)).toFinset.card = targets.length ↔
      (targets.map (·.id)).Nodup := by
    rw [← List.length_map (·.id)]
    exact Multiset.toFinset_card_eq_card_iff_nodup
  rw [List.length_map] at hle
  rw [← haddresses, ← hidentities, ← List.length_eq_zero_iff]
  omega

/-- As many faults are told of the targets in another order. -/
theorem length_checkTargets_of_perm {targets' : List TargetSettings} (h : targets'.Perm targets) :
    (checkTargets 0 [] targets').length = (checkTargets 0 [] targets).length := by
  have hlength := length_checkTargets targets
  have hlength' := length_checkTargets targets'
  have hidentities : (targets'.map (·.id)).toFinset = (targets.map (·.id)).toFinset :=
    List.toFinset_eq_of_perm _ _ (h.map _)
  rw [hidentities, h.countP_eq, h.length_eq] at hlength'
  omega

end Targets

section Check

variable {s : Settings}

/-- Settings break no rule and have targets without faults if they make sense. -/
theorem check_eq_nil_iff : s.check = [] ↔ s.MakesSense := by
  have hbroken : s.broken = [] ↔ ∀ r ∈ rules, r.Holds s := by
    simp [broken, List.filter_eq_nil_iff]
  rw [check, List.append_eq_nil_iff, checkScalars_eq, List.map_eq_nil_iff, hbroken,
    checkTargets_eq_nil_iff]
  simp only [rules, List.forall_mem_cons]
  constructor
  · rintro ⟨⟨hbatch, hbackoff, hworkers, htimeout, howner, hchunk, hflush, hcapacity, hpath,
      hstats, hmetrics, hdays, -⟩, haddresses, hidentities⟩
    exact ⟨hbatch, hbackoff, hworkers, htimeout, howner, hchunk, hflush, hcapacity, hpath,
      hstats, hmetrics, hdays, haddresses, hidentities⟩
  · intro h
    exact ⟨⟨h.batchSize, h.idleBackoff, h.concurrency, h.timeout, h.owner, h.chunkSize,
      h.flushInterval, h.capacity, h.storePath, h.statsInterval, h.metricsAddress, h.exportDays,
      List.forall_mem_nil _⟩, h.addresses, h.identities⟩

/-- No rule of a single setting is about identities that were listed before. -/
theorem isDuplicate_fault (s : Settings) : ∀ r ∈ rules, (r.fault s).isDuplicate = false := by
  simp only [rules, List.forall_mem_cons]
  exact ⟨rfl, rfl, rfl, rfl, rfl, rfl, rfl, rfl, rfl, rfl, rfl, rfl, List.forall_mem_nil _⟩

/-- **The faults of settings are exact.**  A check finds none if the settings make sense, and
only then.  What it finds otherwise is one fault for each rule that is broken, in the order
of the rules, and then the faults of the targets in the order of these, where the target at
an index has a fault if its address is blank, and after it one if a target before it has its
identity.  So there are as many faults of the second kind as targets beyond one for each
identity; and the order of the targets matters neither for whether there are faults nor for
how many. -/
theorem faults_are_exact (s : Settings) :
    (s.check = [] ↔ s.MakesSense) ∧
    s.check =
      (rules.filter fun r => ¬ r.Holds s).map (fun r => ⟨r.field, r.problem s⟩) ++
      (List.range s.targets.length).flatMap (faultsAt s.targets) ∧
    s.check.countP (·.isDuplicate) + (s.targets.map (·.id)).toFinset.card = s.targets.length ∧
    ∀ targets, targets.Perm s.targets →
      (({ s with targets := targets } : Settings).check = [] ↔ s.check = []) ∧
      ({ s with targets := targets } : Settings).check.length = s.check.length := by
  refine ⟨check_eq_nil_iff, ?_, ?_, fun targets hperm => ?_⟩
  · rw [check, checkScalars_eq, checkTargets_eq]
    rfl
  · have hscalars : s.checkScalars.countP (·.isDuplicate) = 0 := by
      rw [checkScalars_eq, List.countP_map, List.countP_eq_zero]
      intro r hr
      simp [isDuplicate_fault s r (List.mem_of_mem_filter hr)]
    have htargets := countP_isDuplicate 0 [] s.targets
    rw [List.toFinset_nil, Finset.union_empty, Finset.card_empty, Nat.add_zero] at htargets
    rw [check, List.countP_append, hscalars, Nat.zero_add, htargets]
  · have hlength : ({ s with targets := targets } : Settings).check.length = s.check.length := by
      rw [check, check, List.length_append, List.length_append,
        length_checkTargets_of_perm hperm]
      rfl
    refine ⟨?_, hlength⟩
    rw [← List.length_eq_zero_iff, hlength, List.length_eq_zero_iff]

/-- Two targets of one identity, one of which has a blank address, and no owner: whichever
of the targets is listed first, it is the second that is told of its identity. -/
theorem faults_are_exact_either_first :
    let told : TargetSettings := ⟨default, "10.0.0.1:7777", .ping⟩
    let blank : TargetSettings := ⟨default, " ", .dial⟩
    let s : Settings := { targets := [told, blank] }
    let s' : Settings := { targets := [blank, told] }
    [blank, told].Perm [told, blank] ∧ (s'.check = [] ↔ s.check = []) ∧
    s'.check.length = s.check.length ∧
    s.check.map (·.field) = ["recorder.owner_id", "targets[1].address", "targets[1].id"] ∧
    s'.check.map (·.field) = ["recorder.owner_id", "targets[0].address", "targets[1].id"] := by
  intro told blank s s'
  have hperm : [blank, told].Perm [told, blank] := .swap told blank []
  obtain ⟨haccepted, hlength⟩ := (faults_are_exact s).2.2.2 [blank, told] hperm
  exact ⟨hperm, haccepted, hlength, by decide, by decide⟩

end Check

end Settings

end PeerWatch
