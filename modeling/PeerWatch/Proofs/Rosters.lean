import PeerWatch.Store.Basic
import PeerWatch.Proofs.Tables

/-!
# Rosters

Both stores hand out targets in the same way, each over rows of its own.  The
enabled rows stand in a queue: first those that were never handed out, then
those that were handed out longest ago, and by key where that decides nothing.
Whoever claims gets the first rows of the queue, and these are stamped.

There is no lease.  That nobody gets a row twice rests on the order alone: a
stamped row stands behind every row whose stamp is earlier or missing, so the
rows that have not been handed out keep their places at the head.

* `Roster.queue`, `Roster.claim` — the queue, and what a claim makes of the rows;
* `Roster.map_queue_of_agreeOn` — the queue depends on nothing but what the
  roster looks at;
* `Roster.queue_claim` — the queue after a claim;
* `Roster.Upcoming` — the rows that are still to be handed out.
-/

set_option linter.unusedSectionVars false

namespace PeerWatch

/-- How a store looks at its rows when it hands them out. -/
structure Roster (τ ρ σ : Type) where
  key : ρ → τ
  isEnabled : ρ → Bool
  /-- When the row was last handed out. -/
  claimed : ρ → Option σ
  stamp : σ → ρ → ρ
  /-- The row without all that the roster does not look at. -/
  bare : ρ → ρ
  key_stamp : ∀ moment row, key (stamp moment row) = key row
  isEnabled_stamp : ∀ moment row, isEnabled (stamp moment row) = isEnabled row
  claimed_stamp : ∀ moment row, claimed (stamp moment row) = some moment
  key_bare : ∀ row, key (bare row) = key row
  isEnabled_bare : ∀ row, isEnabled (bare row) = isEnabled row
  claimed_bare : ∀ row, claimed (bare row) = claimed row
  bare_stamp : ∀ moment row, bare (stamp moment row) = stamp moment (bare row)

namespace Roster

section Order

variable {τ ρ σ : Type} [Ord τ] [Ord σ] (R : Roster τ ρ σ)

/-- Never handed out comes first, then the earlier stamp, then the lesser key. -/
def before (a b : ρ) : Bool :=
  ((compareClaims (R.claimed a) (R.claimed b)).then (compare (R.key a) (R.key b))).isLE

/-- The enabled rows in the order in which they are handed out. -/
def queue (t : Table τ ρ) : List ρ := (t.values.filter R.isEnabled).mergeSort R.before

variable [DecidableEq τ]

/-- The rows with the first of the queue stamped. -/
def claim (limit : Nat) (moment : σ) (t : Table τ ρ) : Table τ ρ :=
  t.mapValues fun k row =>
    if k ∈ ((R.queue t).take limit).map R.key then R.stamp moment row else row

omit [DecidableEq τ]

variable [Std.TransOrd τ] [Std.TransOrd σ]

/-- The order of the queue, as a comparison. -/
theorem before_eq (a b : ρ) :
    R.before a b = (compareLex (compareOn R.claimed) (compareOn R.key) a b).isLE := by
  have hclaims : compareClaims (R.claimed a) (R.claimed b) =
      compare (R.claimed a) (R.claimed b) := by
    cases R.claimed a <;> cases R.claimed b <;> rfl
  rw [before, hclaims]
  rfl

theorem before_trans (a b c : ρ) (hab : R.before a b) (hbc : R.before b c) : R.before a c := by
  rw [before_eq] at hab hbc ⊢
  exact Std.TransCmp.isLE_trans hab hbc

theorem before_total (a b : ρ) : R.before a b || R.before b a := by
  have hswap : compareLex (compareOn R.claimed) (compareOn R.key) b a =
      (compareLex (compareOn R.claimed) (compareOn R.key) a b).swap := Std.OrientedCmp.eq_swap
  rw [before_eq, before_eq, hswap]
  cases compareLex (compareOn R.claimed) (compareOn R.key) a b <;> rfl

/-- A row with an earlier stamp, or with none, stands before one that has a
stamp. -/
theorem before_of_claimed_lt {a b : ρ} {moment : σ} (hb : R.claimed b = some moment)
    (ha : ∀ past ∈ R.claimed a, compare past moment = .lt) : R.before a b ∧ ¬ R.before b a := by
  have hlt : compareClaims (R.claimed a) (R.claimed b) = .lt := by
    rw [hb]
    cases hpast : R.claimed a with
    | none => rfl
    | some past => exact ha past hpast
  have hgt : compareClaims (R.claimed b) (R.claimed a) = .gt := by
    rw [hb]
    cases hpast : R.claimed a with
    | none => rfl
    | some past =>
        show compare moment past = .gt
        exact Std.OrientedCmp.gt_of_lt (ha past hpast)
  constructor
  · rw [before, hlt]
    rfl
  · rw [before, hgt]
    exact Bool.false_ne_true

end Order

section Queue

variable {τ ρ σ : Type} [Ord τ] [Std.TransOrd τ] [Std.LawfulEqOrd τ] [Ord σ] [Std.TransOrd σ]
  (R : Roster τ ρ σ) {t u : Table τ ρ}

/-- The queue is the enabled rows, in some order. -/
theorem queue_perm (t : Table τ ρ) : (R.queue t).Perm (t.values.filter R.isEnabled) :=
  List.mergeSort_perm _ _

/-- Nobody in the queue is before somebody who should be before them. -/
theorem pairwise_queue (t : Table τ ρ) : (R.queue t).Pairwise fun a b => R.before a b :=
  List.pairwise_mergeSort R.before_trans R.before_total _

/-- **The queue depends on nothing else.**  Rows that look the same to the roster
stand in the same queue. -/
theorem map_queue_of_agreeOn (h : Table.AgreeOn R.bare t u) :
    (R.queue t).map R.bare = (R.queue u).map R.bare := by
  have hbare : ∀ t : Table τ ρ,
      (R.queue t).map R.bare = ((t.values.map R.bare).filter R.isEnabled).mergeSort R.before := by
    intro t
    have henabled : R.isEnabled ∘ R.bare = R.isEnabled := funext R.isEnabled_bare
    rw [queue, List.map_mergeSort, List.filter_map, henabled]
    intro a _ b _
    simp only [before, R.claimed_bare, R.key_bare]
  rw [hbare, hbare, h.map_values]

/-- So do their keys. -/
theorem map_key_queue_of_agreeOn (h : Table.AgreeOn R.bare t u) :
    (R.queue t).map R.key = (R.queue u).map R.key := by
  have hkeys : ∀ rows : List ρ, rows.map R.key = (rows.map R.bare).map R.key := by
    intro rows
    rw [List.map_map]
    exact List.map_congr_left fun row _ => (R.key_bare row).symm
  rw [hkeys, hkeys (R.queue u), R.map_queue_of_agreeOn h]

variable (hkeyed : t.Keyed R.key)

include hkeyed

/-- In the queue every key occurs once. -/
theorem nodup_map_key_queue : ((R.queue t).map R.key).Nodup := by
  have hkeys : t.values.map R.key = t.entries.map (·.1) := by
    rw [Table.values, List.map_map]
    refine List.map_congr_left ?_
    intro e he
    obtain ⟨k, row⟩ := e
    exact hkeyed k row (Table.find?_eq_some_iff.2 he)
  have hnodup : (t.values.map R.key).Nodup := by
    rw [hkeys, List.Nodup, List.pairwise_map]
    exact t.ascending.imp fun hlt => key_ne_of_compare_lt hlt
  have hsublist := (List.filter_sublist (l := t.values) (p := R.isEnabled)).map R.key
  exact ((R.queue_perm t).map R.key).nodup_iff.2 (hnodup.sublist hsublist)

/-- In the queue is whoever is in the table and enabled. -/
theorem mem_queue_iff {row : ρ} :
    row ∈ R.queue t ↔ t.find? (R.key row) = some row ∧ R.isEnabled row := by
  rw [(R.queue_perm t).mem_iff, List.mem_filter, hkeyed.mem_values_iff]

/-- Rows with one key in one table are one row. -/
theorem eq_of_before_of_before {a b : ρ} (ha : a ∈ R.queue t) (hb : b ∈ R.queue t)
    (hab : R.before a b) (hba : R.before b a) : a = b := by
  rw [before_eq] at hab hba
  have heq := Std.OrientedCmp.isLE_antisymm hab hba
  have hkey : R.key a = R.key b := by
    obtain ⟨_, hkey⟩ := Ordering.then_eq_eq.1 heq
    exact Std.LawfulEqOrd.eq_of_compare hkey
  have hfound := ((R.mem_queue_iff hkeyed).1 ha).1
  rw [hkey, ((R.mem_queue_iff hkeyed).1 hb).1] at hfound
  exact (Option.some.inj hfound).symm

/-- The queue is known by its rows and their order. -/
theorem queue_eq_of_perm {rows : List ρ} (hperm : rows.Perm (t.values.filter R.isEnabled))
    (hordered : rows.Pairwise fun a b => R.before a b) : R.queue t = rows := by
  have hperm' := (R.queue_perm t).trans hperm.symm
  refine List.Perm.eq_of_pairwise ?_ (R.pairwise_queue t) hordered hperm'
  intro a b ha hb hab hba
  exact R.eq_of_before_of_before hkeyed ha (hperm'.mem_iff.2 hb) hab hba

end Queue

section Claims

variable {τ ρ σ : Type} [Ord τ] [Std.TransOrd τ] [Std.LawfulEqOrd τ] [DecidableEq τ] [Ord σ]
  [Std.TransOrd σ] (R : Roster τ ρ σ) {t u : Table τ ρ}

/-- A claim of nothing changes nothing. -/
theorem claim_zero (moment : σ) (t : Table τ ρ) : R.claim 0 moment t = t := by
  refine Table.ext_find? fun k => ?_
  rw [claim, Table.find?_mapValues]
  simp

/-- After a claim rows still stand under their own keys. -/
theorem keyed_claim (hkeyed : t.Keyed R.key) (limit : Nat) (moment : σ) :
    (R.claim limit moment t).Keyed R.key := by
  intro k row hfound
  rw [claim, Table.find?_mapValues, Option.map_eq_some_iff] at hfound
  obtain ⟨row', hrow', rfl⟩ := hfound
  split
  · rw [R.key_stamp]
    exact hkeyed k row' hrow'
  · exact hkeyed k row' hrow'

/-- What a claim does to rows depends on nothing but what the roster looks at. -/
theorem claim_agreeOn (h : Table.AgreeOn R.bare t u) (limit : Nat) (moment : σ) :
    Table.AgreeOn R.bare (R.claim limit moment t) (R.claim limit moment u) := by
  have hkeys : ((R.queue t).take limit).map R.key = ((R.queue u).take limit).map R.key := by
    rw [List.map_take, List.map_take, R.map_key_queue_of_agreeOn h]
  unfold claim
  rw [hkeys]
  refine h.congr_mapValues fun k row row' hrow => ?_
  split
  · rw [R.bare_stamp, R.bare_stamp, hrow]
  · exact hrow

/-- What a stamp does not show in, a claim does not show in. -/
theorem claim_unseen {μ : Type} {look : ρ → μ}
    (hlook : ∀ moment row, look (R.stamp moment row) = look row) (limit : Nat) (moment : σ)
    (t : Table τ ρ) : Table.AgreeOn look (R.claim limit moment t) t := by
  refine Table.AgreeOn.mapValues fun k row => ?_
  split
  · exact hlook moment row
  · rfl

/-- The row has a stamp, and none of the others has one that is as late. -/
def Behind (others : List ρ) (row : ρ) : Prop :=
  ∃ moment, R.claimed row = some moment ∧
    ∀ other ∈ others, ∀ past ∈ R.claimed other, compare past moment = .lt

/-- The enabled rows after a claim are those of the queue, the first of them
stamped. -/
theorem claim_values_perm (hkeyed : t.Keyed R.key) {first rest : List ρ}
    (hqueue : R.queue t = first ++ rest) (moment : σ) :
    ((R.claim first.length moment t).values.filter R.isEnabled).Perm
      (first.map (R.stamp moment) ++ rest) := by
  let change : ρ → ρ := fun row => if R.key row ∈ first.map R.key then R.stamp moment row else row
  have hvalues : (R.claim first.length moment t).values = t.values.map change := by
    simp only [claim, hqueue, List.take_left', Table.values, Table.mapValues, List.map_map]
    refine List.map_congr_left ?_
    intro e he
    obtain ⟨k, row⟩ := e
    have hkey : R.key row = k := hkeyed k row (Table.find?_eq_some_iff.2 he)
    simp only [Function.comp, change, hkey]
  have henabled : ∀ row, R.isEnabled (change row) = R.isEnabled row := by
    intro row
    simp only [change]
    split
    · exact R.isEnabled_stamp moment row
    · rfl
  have hnodup := R.nodup_map_key_queue hkeyed
  rw [hqueue, List.map_append, List.nodup_append] at hnodup
  have hfirst : first.map change = first.map (R.stamp moment) :=
    List.map_congr_left fun row hrow => if_pos (List.mem_map_of_mem hrow)
  have hrest : rest.map change = rest := by
    refine (List.map_congr_left fun row hrow => ?_).trans (List.map_id rest)
    refine if_neg fun hmem => ?_
    exact hnodup.2.2 _ hmem _ (List.mem_map_of_mem hrow) rfl
  have hfilter : (t.values.map change).filter R.isEnabled =
      (t.values.filter R.isEnabled).map change := by
    rw [List.filter_map]
    exact congrArg (List.map change) (List.filter_congr fun row _ => henabled row)
  rw [hvalues, hfilter, ← hfirst]
  conv => rhs; rw [← hrest]
  rw [← List.map_append, ← hqueue]
  exact ((R.queue_perm t).map change).symm

/-- **The queue after a claim.**  The rows that follow those handed out move up
to the head, if all behind them have later stamps and the claim's is later too. -/
theorem queue_claim (hkeyed : t.Keyed R.key) {first fresh behind : List ρ}
    (hqueue : R.queue t = first ++ (fresh ++ behind)) {moment : σ}
    (hlater : ∀ row ∈ fresh, ∀ past ∈ R.claimed row, compare past moment = .lt)
    (hbehind : ∀ row ∈ behind, R.Behind fresh row) :
    ∃ behind', R.queue (R.claim first.length moment t) = fresh ++ behind' ∧
      ∀ row ∈ behind', R.Behind fresh row := by
  have hstamped : ∀ row ∈ first.map (R.stamp moment), R.Behind fresh row := by
    intro row hrow
    obtain ⟨row', _, rfl⟩ := List.mem_map.1 hrow
    exact ⟨moment, R.claimed_stamp moment row', hlater⟩
  let tail := (first.map (R.stamp moment) ++ behind).mergeSort R.before
  have htail : tail.Perm (first.map (R.stamp moment) ++ behind) := List.mergeSort_perm _ _
  have hall : ∀ row ∈ tail, R.Behind fresh row := by
    intro row hrow
    rcases List.mem_append.1 (htail.mem_iff.1 hrow) with hrow | hrow
    · exact hstamped row hrow
    · exact hbehind row hrow
  refine ⟨tail, ?_, hall⟩
  refine R.queue_eq_of_perm (R.keyed_claim hkeyed _ _) ?_ ?_
  · have hperm := R.claim_values_perm hkeyed hqueue moment
    refine List.Perm.trans ?_ hperm.symm
    calc (fresh ++ tail).Perm (fresh ++ (first.map (R.stamp moment) ++ behind)) :=
          htail.append_left fresh
      _ |>.Perm (first.map (R.stamp moment) ++ (fresh ++ behind)) := by
          rw [← List.append_assoc, ← List.append_assoc]
          exact List.perm_append_comm.append_right behind
  · have hordered := R.pairwise_queue t
    rw [hqueue] at hordered
    have hfresh := (List.pairwise_append.1 (List.pairwise_append.1 hordered).2.1).1
    refine List.pairwise_append.2
      ⟨hfresh, List.pairwise_mergeSort R.before_trans R.before_total _, ?_⟩
    intro a ha b hb
    obtain ⟨moment', hmoment', hpast⟩ := hall b hb
    exact (R.before_of_claimed_lt hmoment' (hpast a ha)).1

/-- The rows that are still to be handed out, as the roster sees them: they are
the head of the queue, and whatever stands behind them has a later stamp. -/
structure Upcoming (rows : List ρ) (t : Table τ ρ) : Prop where
  keyed : t.Keyed R.key
  queue : ∃ ahead behind, R.queue t = ahead ++ behind ∧ ahead.map R.bare = rows.map R.bare ∧
    ∀ row ∈ behind, R.Behind rows row

/-- Stamps belong to what the roster looks at. -/
theorem behind_congr {rows rows' : List ρ} (h : rows.map R.bare = rows'.map R.bare) {row : ρ}
    (hrow : R.Behind rows row) : R.Behind rows' row := by
  obtain ⟨moment, hmoment, hpast⟩ := hrow
  refine ⟨moment, hmoment, ?_⟩
  intro other hother past hclaimed
  have hmem : R.bare other ∈ rows.map R.bare := h ▸ List.mem_map_of_mem hother
  obtain ⟨other', hother', hbare⟩ := List.mem_map.1 hmem
  refine hpast other' hother' past ?_
  rw [← R.claimed_bare other', hbare, R.claimed_bare]
  exact hclaimed

/-- In the beginning the whole queue is to be handed out. -/
theorem upcoming_queue (hkeyed : t.Keyed R.key) : R.Upcoming (R.queue t) t where
  keyed := hkeyed
  queue := ⟨R.queue t, [], (List.append_nil _).symm, rfl, fun _ h => by cases h⟩

variable {R}

/-- A change that the roster does not look at leaves the head of the queue. -/
theorem Upcoming.congr {rows : List ρ} (h : R.Upcoming rows t) (hkeyed : u.Keyed R.key)
    (hsame : Table.AgreeOn R.bare t u) : R.Upcoming rows u := by
  obtain ⟨ahead, behind, hqueue, hahead, hbehind⟩ := h.queue
  have hbare := R.map_queue_of_agreeOn hsame
  rw [hqueue, List.map_append] at hbare
  obtain ⟨ahead', behind', hqueue', hahead', hbehind'⟩ := List.append_eq_map_iff.1 hbare
  refine ⟨hkeyed, ahead', behind', hqueue', hahead'.trans hahead, ?_⟩
  intro row hrow
  have hmem : R.bare row ∈ behind.map R.bare := hbehind' ▸ List.mem_map_of_mem hrow
  obtain ⟨row', hrow', heq⟩ := List.mem_map.1 hmem
  obtain ⟨moment, hmoment, hpast⟩ := hbehind row' hrow'
  refine ⟨moment, ?_, hpast⟩
  rw [← R.claimed_bare row, ← heq, R.claimed_bare]
  exact hmoment

/-- What is claimed is the first of the rows to be handed out. -/
theorem Upcoming.map_take {rows : List ρ} (h : R.Upcoming rows t) {limit : Nat}
    (hlimit : limit ≤ rows.length) :
    ((R.queue t).take limit).map R.bare = (rows.take limit).map R.bare := by
  obtain ⟨ahead, behind, hqueue, hahead, _⟩ := h.queue
  have hlength : ahead.length = rows.length := by
    simpa using congrArg List.length hahead
  rw [hqueue, List.take_append_of_le_length (hlength ▸ hlimit), List.map_take, hahead,
    List.map_take]

/-- **A claim** moves the rows after those it hands out up to the head. -/
theorem Upcoming.claim {rows : List ρ} (h : R.Upcoming rows t) {limit : Nat}
    (hlimit : limit ≤ rows.length) {moment : σ}
    (hlater : ∀ row ∈ rows, ∀ past ∈ R.claimed row, compare past moment = .lt) :
    R.Upcoming (rows.drop limit) (R.claim limit moment t) := by
  obtain ⟨ahead, behind, hqueue, hahead, hbehind⟩ := h.queue
  have hlength : ahead.length = rows.length := by
    simpa using congrArg List.length hahead
  have hdrop : (ahead.drop limit).map R.bare = (rows.drop limit).map R.bare := by
    rw [List.map_drop, hahead, List.map_drop]
  have hsplit : R.queue t = ahead.take limit ++ (ahead.drop limit ++ behind) := by
    rw [← List.append_assoc, List.take_append_drop, hqueue]
  have hlater' : ∀ row ∈ ahead.drop limit, ∀ past ∈ R.claimed row, compare past moment = .lt := by
    intro row hrow past hpast
    have hmem : R.bare row ∈ rows.map R.bare :=
      hahead ▸ List.mem_map_of_mem (List.mem_of_mem_drop hrow)
    obtain ⟨row', hrow', hbare⟩ := List.mem_map.1 hmem
    refine hlater row' hrow' past ?_
    rw [← R.claimed_bare row', hbare, R.claimed_bare]
    exact hpast
  have hbehind' : ∀ row ∈ behind, R.Behind (ahead.drop limit) row := by
    intro row hrow
    obtain ⟨moment', hmoment', hpast⟩ := R.behind_congr hahead.symm (hbehind row hrow)
    exact ⟨moment', hmoment', fun other hother => hpast other (List.mem_of_mem_drop hother)⟩
  obtain ⟨behind'', hnext, hall⟩ := R.queue_claim h.keyed hsplit hlater' hbehind'
  rw [List.length_take_of_le (hlength ▸ hlimit)] at hnext
  exact ⟨R.keyed_claim h.keyed _ _, ahead.drop limit, behind'', hnext, hdrop,
    fun row hrow => R.behind_congr hdrop (hall row hrow)⟩

end Claims

end Roster

end PeerWatch
