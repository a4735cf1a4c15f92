import PeerWatch.Table

/-!
# What is found in a table

A table is known by what is found in it: two tables in which every key finds
the same are equal, since their entries ascend.  Each operation therefore has
one law here, which says what is found after it.

* `find?_eq_some_iff` — a value is found under a key if and only if the two
  are an entry;
* `ext_find?` — extensionality;
* `find?_insert`, `find?_modify`, `find?_mapValues`, `find?_filter`, `find?_overlay` — the laws;
* `size_insert` — a table grows by the keys it did not have;
* `Keyed` — values that tell their keys;
* `AgreeOn` — tables that look the same under every key, and `AgreeOn.eq`;
* `Mirrors` — one table kept in the hand of another: keys and values are
  translated, and nothing else is in it.
-/

namespace PeerWatch

/-- Lists in one strict order are equal if they have the same members. -/
theorem eq_of_pairwise_of_mem_iff {α : Type} {before : α → α → Prop}
    (hasymm : ∀ a b, before a b → ¬ before b a) {xs ys : List α} (hx : xs.Pairwise before)
    (hy : ys.Pairwise before) (h : ∀ a, a ∈ xs ↔ a ∈ ys) : xs = ys := by
  have hnd : ∀ {l : List α}, l.Pairwise before → l.Nodup := by
    intro l hl
    refine hl.imp ?_
    intro a b hab heq
    subst heq
    exact hasymm a a hab hab
  refine List.Perm.eq_of_pairwise ?_ hx hy ((List.perm_ext_iff_of_nodup (hnd hx) (hnd hy)).2 h)
  intro a b _ _ hab hba
  exact absurd hba (hasymm a b hab)

section Entries

variable {κ ν : Type} [Ord κ] [Std.TransOrd κ]

/-- A key is not before itself. -/
theorem key_ne_of_compare_lt {a b : κ} (h : compare a b = .lt) : a ≠ b := by
  intro heq
  subst heq
  have hself : compare a a = .eq := Std.ReflCmp.compare_self
  rw [hself] at h
  cases h

/-- Among ascending entries a key occurs once. -/
theorem Ascending.eq_of_key_eq {entries : List (κ × ν)} (h : Ascending entries) {a b : κ × ν}
    (ha : a ∈ entries) (hb : b ∈ entries) (hkey : a.1 = b.1) : a = b := by
  induction entries with
  | nil => cases ha
  | cons head rest ih =>
      obtain ⟨hHead, hRest⟩ := List.pairwise_cons.1 h
      have hne : ∀ e ∈ rest, head.1 ≠ e.1 := fun e he => key_ne_of_compare_lt (hHead e he)
      rcases List.mem_cons.1 ha with hah | ha <;> rcases List.mem_cons.1 hb with hbh | hb
      · rw [hah, hbh]
      · exact absurd (hah ▸ hkey) (hne b hb)
      · exact absurd (hbh ▸ hkey.symm) (hne a ha)
      · exact ih hRest ha hb

/-- Ascending entries are determined by which entries there are. -/
theorem Ascending.eq_of_mem_iff {xs ys : List (κ × ν)} (hx : Ascending xs) (hy : Ascending ys)
    (h : ∀ e, e ∈ xs ↔ e ∈ ys) : xs = ys := by
  refine eq_of_pairwise_of_mem_iff ?_ hx hy h
  intro a b hab hba
  exact absurd (Std.OrientedCmp.gt_of_lt hab) (by rw [hba]; decide)

variable [Std.LawfulEqOrd κ]

/-- Putting a value under a key replaces what stood there and nothing else. -/
theorem mem_putEntry_iff {key : κ} {value : ν} {entries : List (κ × ν)} (h : Ascending entries)
    {e : κ × ν} :
    e ∈ putEntry key value entries ↔ e = (key, value) ∨ e ∈ entries ∧ e.1 ≠ key := by
  induction entries with
  | nil => simp [putEntry]
  | cons head rest ih =>
      obtain ⟨k, v⟩ := head
      obtain ⟨hHead, hRest⟩ := List.pairwise_cons.1 h
      unfold putEntry
      split
      case h_1 hlt =>
        have hRestNe : ∀ e ∈ rest, e.1 ≠ key := fun e he =>
          (key_ne_of_compare_lt (Std.TransCmp.lt_trans hlt (hHead e he))).symm
        have hHeadNe : k ≠ key := (key_ne_of_compare_lt hlt).symm
        grind
      case h_2 heq =>
        obtain rfl : key = k := Std.LawfulEqCmp.eq_of_compare heq
        have hRestNe : ∀ e ∈ rest, e.1 ≠ key := fun e he =>
          (key_ne_of_compare_lt (hHead e he)).symm
        grind
      case h_3 hgt =>
        have hHeadNe : k ≠ key := key_ne_of_compare_lt (Std.OrientedCmp.lt_of_gt hgt)
        rw [List.mem_cons, ih hRest]
        grind

/-- A key that stands among the entries already makes no new entry. -/
theorem length_putEntry {key : κ} {value : ν} {entries : List (κ × ν)} (h : Ascending entries) :
    (putEntry key value entries).length =
      entries.length + if entries.any (fun e => compare e.1 key == .eq) then 0 else 1 := by
  induction entries with
  | nil => rfl
  | cons head rest ih =>
      obtain ⟨k, v⟩ := head
      obtain ⟨hHead, hRest⟩ := List.pairwise_cons.1 h
      unfold putEntry
      split
      case h_1 hlt =>
        have habsent : ((k, v) :: rest).any (fun e => compare e.1 key == .eq) = false := by
          refine List.any_eq_false.2 fun e he heq => ?_
          have hkey : e.1 = key := by simpa using heq
          rcases List.mem_cons.1 he with rfl | he
          · exact key_ne_of_compare_lt hlt hkey.symm
          · exact key_ne_of_compare_lt (Std.TransCmp.lt_trans hlt (hHead e he)) hkey.symm
        simp [habsent]
      case h_2 heq =>
        obtain rfl : key = k := Std.LawfulEqCmp.eq_of_compare heq
        simp
      case h_3 hgt =>
        have hne : k ≠ key := key_ne_of_compare_lt (Std.OrientedCmp.lt_of_gt hgt)
        have hany : ((k, v) :: rest).any (fun e => compare e.1 key == .eq) =
            rest.any fun e => compare e.1 key == .eq := by simp [hne]
        rw [hany, List.length_cons, List.length_cons, ih hRest]
        omega

end Entries

namespace Table

section Laws

variable {κ ν : Type} [Ord κ]

@[simp] theorem find?_empty (key : κ) : (∅ : Table κ ν).find? key = none := rfl

variable [Std.TransOrd κ] [Std.LawfulEqOrd κ]

/-- A value is found under a key exactly when the two are an entry. -/
theorem find?_eq_some_iff {t : Table κ ν} {key : κ} {value : ν} :
    t.find? key = some value ↔ (key, value) ∈ t.entries := by
  unfold find?
  rw [Option.map_eq_some_iff]
  constructor
  · intro hentry
    rcases hentry with ⟨e, he, rfl⟩
    have hkey : e.1 = key := by simpa using List.find?_some he
    exact hkey ▸ List.mem_of_find?_eq_some he
  · intro hmem
    have hex : (t.entries.find? fun e => compare e.1 key == .eq).isSome :=
      List.find?_isSome.2 ⟨(key, value), hmem, by simp⟩
    obtain ⟨e, he⟩ := Option.isSome_iff_exists.1 hex
    have hkey : e.1 = key := by simpa using List.find?_some he
    have heq : e = (key, value) :=
      t.ascending.eq_of_key_eq (List.mem_of_find?_eq_some he) hmem hkey
    exact ⟨e, he, by rw [heq]⟩

/-- **Extensionality.**  Tables in which every key finds the same are equal. -/
theorem ext_find? {t u : Table κ ν} (h : ∀ key, t.find? key = u.find? key) : t = u := by
  have hentries : t.entries = u.entries := by
    refine t.ascending.eq_of_mem_iff u.ascending ?_
    intro hentry
    rcases hentry with ⟨key, value⟩
    rw [← find?_eq_some_iff, ← find?_eq_some_iff, h key]
  cases t
  cases u
  congr

/-- A row is found among those that pass if it was there and passes. -/
theorem find?_filter (t : Table κ ν) (p : κ → ν → Bool) (k : κ) :
    (t.filter p).find? k = (t.find? k).filter (p k) := by
  refine Option.ext fun v => ?_
  rw [find?_eq_some_iff, Option.filter_eq_some_iff, find?_eq_some_iff]
  simp [filter]

theorem find?_mapValues {μ : Type} (t : Table κ ν) (f : κ → ν → μ) (k : κ) :
    (t.mapValues f).find? k = (t.find? k).map (f k) := by
  refine Option.ext fun m => ?_
  simp only [find?_eq_some_iff, Option.map_eq_some_iff, mapValues, List.mem_map, Prod.mk.injEq]
  constructor
  · intro hentry
    rcases hentry with ⟨⟨k', v⟩, hmem, rfl, rfl⟩
    exact ⟨v, hmem, rfl⟩
  · intro hentry
    rcases hentry with ⟨v, hmem, rfl⟩
    exact ⟨(k, v), hmem, rfl, rfl⟩

/-- A table grows by one entry under a key that it did not have. -/
theorem size_insert (t : Table κ ν) (key : κ) (value : ν) :
    (t.insert key value).size = t.size + if t.contains key then 0 else 1 := by
  have hany : t.contains key = t.entries.any fun e => compare e.1 key == .eq := by
    unfold contains find?
    rw [Option.isSome_map, List.isSome_find?]
  rw [hany]
  exact length_putEntry t.ascending

variable [DecidableEq κ]

/-- What was put in is found under its key, and all else as before. -/
theorem find?_insert (t : Table κ ν) (key : κ) (value : ν) (k : κ) :
    (t.insert key value).find? k = if k = key then some value else t.find? k := by
  split
  · next heq => rw [heq, find?_insert_self]
  · next hne =>
      refine Option.ext fun v => ?_
      rw [find?_eq_some_iff, find?_eq_some_iff]
      simp [insert, mem_putEntry_iff t.ascending, hne]

/-- What is changed is found changed, and all else as before. -/
theorem find?_modify (t : Table κ ν) (key : κ) (f : ν → ν) (k : κ) :
    (t.modify key f).find? k = if k = key then (t.find? k).map f else t.find? k := by
  rw [modify, find?_mapValues]
  by_cases hk : k = key
  · simp [hk]
  · simp [hk]

/-- Changing what stands under some keys, one after another, changes what stands
under each of them, if a second change adds nothing to the first. -/
theorem find?_foldl_modify {f : ν → ν} (hf : ∀ v, f (f v) = f v) (keys : List κ) (t : Table κ ν)
    (k : κ) :
    (keys.foldl (fun t key => t.modify key f) t).find? k =
      if k ∈ keys then (t.find? k).map f else t.find? k := by
  induction keys generalizing t with
  | nil => simp
  | cons key rest ih =>
      rw [List.foldl_cons, ih, find?_modify]
      by_cases hk : k = key
      · subst hk
        cases t.find? k <;> simp [hf]
      · simp [hk]

/-- There is nothing to change under a key that finds nothing. -/
theorem modify_of_find?_eq_none {t : Table κ ν} {key : κ} (h : t.find? key = none) (f : ν → ν) :
    t.modify key f = t := by
  refine ext_find? fun k => ?_
  rw [find?_modify]
  split
  · next heq => rw [heq, h, Option.map_none]
  · rfl

/-- What is put over a table is found first. -/
theorem find?_overlay (t upper : Table κ ν) (k : κ) :
    (t.overlay upper).find? k = (upper.find? k).or (t.find? k) := by
  have hfold : ∀ (entries : List (κ × ν)) (t : Table κ ν), Ascending entries →
      (entries.foldl (fun acc e => acc.insert e.1 e.2) t).find? k =
        ((entries.find? fun e => compare e.1 k == .eq).map (·.2)).or (t.find? k) := by
    intro entries
    induction entries with
    | nil => intro t _; rfl
    | cons e rest ih =>
        intro t h
        obtain ⟨hHead, hRest⟩ := List.pairwise_cons.1 h
        rw [List.foldl_cons, ih _ hRest, find?_insert]
        by_cases hk : k = e.1
        · -- the later entries are greater, so none of them is under `k` again
          have hlater : (rest.find? fun e => compare e.1 k == .eq) = none := by
            refine List.find?_eq_none.2 fun e' he' hc => ?_
            have heq : e'.1 = k := by simpa using hc
            exact key_ne_of_compare_lt (hHead e' he') (hk.symm.trans heq.symm)
          rw [hlater]
          simp [hk]
        · have hc : (compare e.1 k == .eq) = false := by
            simpa using fun h => hk h.symm
          simp [hc, hk]
  exact hfold upper.entries t upper.ascending

/-- What was put in is there. -/
@[simp] theorem contains_insert (t : Table κ ν) (key : κ) (value : ν) (k : κ) :
    (t.insert key value).contains k = (decide (k = key) || t.contains k) := by
  unfold contains
  rw [find?_insert]
  split <;> simp [*]

/-- Changing a row neither brings it nor takes it away. -/
@[simp] theorem contains_modify (t : Table κ ν) (key : κ) (f : ν → ν) (k : κ) :
    (t.modify key f).contains k = t.contains k := by
  unfold contains
  rw [find?_modify]
  split <;> simp

end Laws

section Keyed

variable {κ ν : Type} [Ord κ]

/-- Every value tells the key it is kept under. -/
def Keyed (keyOf : ν → κ) (t : Table κ ν) : Prop := ∀ k v, t.find? k = some v → keyOf v = k

variable {keyOf : ν → κ} {t : Table κ ν}

theorem Keyed.empty : Keyed keyOf (∅ : Table κ ν) := by
  intro k v h
  cases h

variable [Std.TransOrd κ] [Std.LawfulEqOrd κ]

/-- In a keyed table a row is there if it is found under its own key. -/
theorem Keyed.mem_values_iff (h : Keyed keyOf t) {v : ν} :
    v ∈ t.values ↔ t.find? (keyOf v) = some v := by
  unfold values
  rw [List.mem_map]
  constructor
  · intro hentry
    rcases hentry with ⟨⟨k, v⟩, hmem, rfl⟩
    have hfound := find?_eq_some_iff.2 hmem
    rwa [h k v hfound]
  · intro hfound
    exact ⟨_, find?_eq_some_iff.1 hfound, rfl⟩

/-- A keyed table stays so when rows are left out. -/
theorem Keyed.filter (h : Keyed keyOf t) (p : κ → ν → Bool) : Keyed keyOf (t.filter p) := by
  intro k v hfound
  rw [find?_filter, Option.filter_eq_some_iff] at hfound
  exact h k v hfound.1

variable [DecidableEq κ]

/-- A keyed table stays so when a row is put under its own key. -/
theorem Keyed.insert (h : Keyed keyOf t) {k : κ} {v : ν} (hkey : keyOf v = k) :
    Keyed keyOf (t.insert k v) := by
  intro k' v' hfound
  rw [find?_insert] at hfound
  split at hfound
  · next heq =>
      obtain rfl := Option.some.inj hfound
      exact hkey.trans heq.symm
  · exact h k' v' hfound

/-- A keyed table stays so when a row changes but not its key. -/
theorem Keyed.modify (h : Keyed keyOf t) {k : κ} {f : ν → ν} (hkey : ∀ v, keyOf (f v) = keyOf v) :
    Keyed keyOf (t.modify k f) := by
  intro k' v' hfound
  rw [find?_modify] at hfound
  split at hfound
  · obtain ⟨v, hv, rfl⟩ := Option.map_eq_some_iff.1 hfound
    exact (hkey v).trans (h k' v hv)
  · exact h k' v' hfound

end Keyed

section Agreement

variable {κ ν μ : Type} [Ord κ]

/-- What stands under each key looks the same in both tables. -/
def AgreeOn (look : ν → μ) (t u : Table κ ν) : Prop :=
  ∀ k, (t.find? k).map look = (u.find? k).map look

variable {look : ν → μ} {t u w : Table κ ν}

theorem AgreeOn.refl (look : ν → μ) (t : Table κ ν) : AgreeOn look t t := fun _ => rfl

theorem AgreeOn.symm (h : AgreeOn look t u) : AgreeOn look u t := fun k => (h k).symm

theorem AgreeOn.trans (h : AgreeOn look t u) (h' : AgreeOn look u w) : AgreeOn look t w :=
  fun k => (h k).trans (h' k)

/-- Tables that agree have the same keys. -/
theorem AgreeOn.contains (h : AgreeOn look t u) (k : κ) : t.contains k = u.contains k := by
  unfold Table.contains
  rw [← Option.isSome_map (f := look), h k, Option.isSome_map]

/-- What is found in one table has its like in the other. -/
theorem AgreeOn.exists_find? (h : AgreeOn look t u) {k : κ} {v : ν} (hv : t.find? k = some v) :
    ∃ v', u.find? k = some v' ∧ look v' = look v := by
  have hk := h k
  rw [hv, Option.map_some, eq_comm, Option.map_eq_some_iff] at hk
  exact hk

/-- Values tell their keys in one table if they do in another that looks the same. -/
theorem AgreeOn.keyed {keyOf : ν → κ} (h : AgreeOn look t u)
    (hlook : ∀ v v', look v = look v' → keyOf v = keyOf v') (hu : Keyed keyOf u) :
    Keyed keyOf t := by
  intro k v hv
  obtain ⟨v', hv', heq⟩ := h.exists_find? hv
  exact (hlook v v' heq.symm).trans (hu k v' hv')

variable [Std.TransOrd κ] [Std.LawfulEqOrd κ]

/-- The values look the same, one after another. -/
theorem AgreeOn.map_values (h : AgreeOn look t u) : t.values.map look = u.values.map look := by
  have hsame : t.mapValues (fun _ => look) = u.mapValues (fun _ => look) := by
    refine ext_find? fun k => ?_
    rw [find?_mapValues, find?_mapValues]
    exact h k
  have hvalues : ∀ t : Table κ ν, t.values.map look = (t.mapValues fun _ => look).values := by
    intro t
    simp [values, mapValues]
  rw [hvalues, hvalues, hsame]

/-- Tables that look the same in two ways which tell values apart are equal. -/
theorem AgreeOn.eq {μ' : Type} {look' : ν → μ'} (h : AgreeOn look t u) (h' : AgreeOn look' t u)
    (hlook : ∀ v v', look v = look v' → look' v = look' v' → v = v') : t = u := by
  refine ext_find? fun k => ?_
  have hk := h k
  have hk' := h' k
  cases ht : t.find? k with
  | none =>
      rw [ht, Option.map_none, eq_comm, Option.map_eq_none_iff] at hk
      exact hk.symm
  | some v =>
      cases hu : u.find? k with
      | none => simp [ht, hu] at hk
      | some v' =>
          rw [ht, hu, Option.map_some, Option.map_some, Option.some.injEq] at hk hk'
          rw [hlook v v' hk hk']

/-- What changes nothing in the look of a value changes nothing in the look of
the table. -/
theorem AgreeOn.mapValues {f : κ → ν → ν} (hf : ∀ k v, look (f k v) = look v) :
    AgreeOn look (t.mapValues f) t := by
  intro k
  rw [find?_mapValues, Option.map_map]
  congr 1
  funext v
  exact hf k v

/-- What changes values of one look alike changes tables of one look alike. -/
theorem AgreeOn.congr_mapValues (h : AgreeOn look t u) {f : κ → ν → ν}
    (hf : ∀ k v v', look v = look v' → look (f k v) = look (f k v')) :
    AgreeOn look (t.mapValues f) (u.mapValues f) := by
  intro k
  rw [find?_mapValues, find?_mapValues]
  have hk := h k
  cases ht : t.find? k with
  | none =>
      rw [ht, Option.map_none, eq_comm, Option.map_eq_none_iff] at hk
      rw [hk]
  | some v =>
      obtain ⟨v', hu, hv⟩ := h.exists_find? ht
      rw [hu, Option.map_some, Option.map_some, Option.map_some, Option.map_some,
        hf k v v' hv.symm]

end Agreement

section Mirrors

variable {κ ν κ' ν' : Type} [Ord κ] [Ord κ']

/-- One table keeps what another keeps, its keys and values translated, and
nothing else. -/
structure Mirrors (key : κ → κ') (value : ν → ν') (u : Table κ' ν') (t : Table κ ν) : Prop where
  find : ∀ k, u.find? (key k) = (t.find? k).map value
  keys : ∀ k', u.contains k' → ∃ k, k' = key k

variable {key : κ → κ'} {value : ν → ν'} {u : Table κ' ν'} {t : Table κ ν}

theorem Mirrors.empty : Mirrors key value (∅ : Table κ' ν') (∅ : Table κ ν) :=
  ⟨fun _ => rfl, fun _ h => by cases h⟩

theorem Mirrors.contains (h : Mirrors key value u t) (k : κ) :
    u.contains (key k) = t.contains k := by
  unfold Table.contains
  rw [h.find, Option.isSome_map]

variable [Std.TransOrd κ] [Std.LawfulEqOrd κ] [Std.TransOrd κ'] [Std.LawfulEqOrd κ']

/-- Of tables in the same order the entries correspond one by one. -/
theorem Mirrors.entries_eq (h : Mirrors key value u t)
    (hcompare : ∀ a b, compare (key a) (key b) = compare a b) :
    u.entries = t.entries.map fun e => (key e.1, value e.2) := by
  have hascending : Ascending (t.entries.map fun e => (key e.1, value e.2)) := by
    refine List.pairwise_map.2 (t.ascending.imp ?_)
    intro a b hlt
    exact (hcompare a.1 b.1).trans hlt
  refine u.ascending.eq_of_mem_iff hascending ?_
  intro hentry
  rcases hentry with ⟨k', v'⟩
  rw [← find?_eq_some_iff, List.mem_map]
  constructor
  · intro hfound
    obtain ⟨k, rfl⟩ := h.keys k' (by simp [Table.contains, hfound])
    rw [h.find] at hfound
    obtain ⟨v, hv, rfl⟩ := Option.map_eq_some_iff.1 hfound
    exact ⟨(k, v), find?_eq_some_iff.1 hv, rfl⟩
  · intro hentry
    rcases hentry with ⟨⟨k, v⟩, hmem, heq⟩
    obtain ⟨rfl, rfl⟩ := Prod.mk.injEq .. ▸ heq
    rw [h.find, find?_eq_some_iff.2 hmem]
    rfl

variable [DecidableEq κ] [DecidableEq κ']

/-- Rows changed alike are mirrored as before. -/
theorem Mirrors.modify (h : Mirrors key value u t) (hkey : ∀ a b, key a = key b → a = b) {k : κ}
    {f' : ν' → ν'} {f : ν → ν} (hf : ∀ v, t.find? k = some v → f' (value v) = value (f v)) :
    Mirrors key value (u.modify (key k) f') (t.modify k f) where
  find k' := by
    rw [find?_modify, find?_modify, h.find]
    by_cases heq : k' = k
    · subst heq
      rw [if_pos rfl, if_pos rfl]
      cases hfound : t.find? k' with
      | none => rfl
      | some v => simp [hf v hfound]
    · rw [if_neg (fun hc => heq (hkey _ _ hc)), if_neg heq]
  keys k' hk' := by
    rw [contains_modify] at hk'
    exact h.keys k' hk'

theorem Mirrors.insert (h : Mirrors key value u t) (hkey : ∀ a b, key a = key b → a = b)
    (k : κ) (v : ν) : Mirrors key value (u.insert (key k) (value v)) (t.insert k v) where
  find k' := by
    rw [find?_insert, find?_insert, h.find]
    by_cases heq : k' = k
    · simp [heq]
    · rw [if_neg (fun hc => heq (hkey _ _ hc)), if_neg heq]
  keys k' hk' := by
    rw [contains_insert, Bool.or_eq_true, decide_eq_true_eq] at hk'
    rcases hk' with rfl | hk'
    · exact ⟨k, rfl⟩
    · exact h.keys k' hk'

end Mirrors

end Table

end PeerWatch
