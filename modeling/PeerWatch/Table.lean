/-!
# Tables

A table holds at most one value under each key, in ascending order of the
keys.  Two tables with the same entries are the same table, however they were
filled.

* `find?`, `insert`, `erase`, `modify`, `upsert` — the operations;
* `ascending_putEntry`, `find?_insert_self` — what an insertion does.
-/

namespace PeerWatch

/-- Entries in ascending order of their keys. -/
def Ascending {κ ν : Type} [Ord κ] (entries : List (κ × ν)) : Prop :=
  entries.Pairwise fun a b => compare a.1 b.1 = .lt

/-- Puts a value under a key into a list of entries: in place of the entry
with that key, or before the first greater one. -/
def putEntry {κ ν : Type} [Ord κ] (key : κ) (value : ν) : List (κ × ν) → List (κ × ν)
  | [] => [(key, value)]
  | (k, v) :: rest =>
    match compare key k with
    | .lt => (key, value) :: (k, v) :: rest
    | .eq => (key, value) :: rest
    | .gt => (k, v) :: putEntry key value rest

/-- Whatever is in the entries afterwards is new or was there. -/
theorem mem_putEntry {κ ν : Type} [Ord κ] {key : κ} {value : ν} {entries : List (κ × ν)}
    {e : κ × ν} (h : e ∈ putEntry key value entries) : e = (key, value) ∨ e ∈ entries := by
  induction entries with
  | nil => simpa [putEntry] using h
  | cons head rest ih =>
    obtain ⟨k, v⟩ := head
    unfold putEntry at h
    split at h
    · simpa using h
    · rcases List.mem_cons.1 h with h | h
      · exact .inl h
      · exact .inr (List.mem_cons_of_mem _ h)
    · rcases List.mem_cons.1 h with h | h
      · exact .inr (h ▸ List.mem_cons_self)
      · rcases ih h with h | h
        · exact .inl h
        · exact .inr (List.mem_cons_of_mem _ h)

/-- Putting an entry in its place keeps the keys ascending. -/
theorem ascending_putEntry {κ ν : Type} [Ord κ] [Std.TransOrd κ] [Std.LawfulEqOrd κ] {key : κ}
    {value : ν} {entries : List (κ × ν)} (h : Ascending entries) :
    Ascending (putEntry key value entries) := by
  induction entries with
  | nil => exact List.pairwise_singleton _ _
  | cons head rest ih =>
    obtain ⟨k, v⟩ := head
    obtain ⟨hHead, hRest⟩ := List.pairwise_cons.1 h
    unfold putEntry
    split
    · rename_i hlt
      refine List.pairwise_cons.2 ⟨?_, h⟩
      intro e he
      rcases List.mem_cons.1 he with he | he
      · subst he; exact hlt
      · exact Std.TransCmp.lt_trans hlt (hHead e he)
    · rename_i heq
      have : key = k := Std.LawfulEqCmp.eq_of_compare heq
      subst this
      exact List.pairwise_cons.2 ⟨hHead, hRest⟩
    · rename_i hgt
      refine List.pairwise_cons.2 ⟨?_, ih hRest⟩
      intro e he
      rcases mem_putEntry he with he | he
      · subst he; exact Std.OrientedCmp.lt_of_gt hgt
      · exact hHead e he

/-- A finite map whose entries stand in ascending order of their keys. -/
structure Table (κ ν : Type) [Ord κ] where
  entries : List (κ × ν)
  /-- The keys ascend, so none occurs twice. -/
  ascending : Ascending entries

namespace Table

variable {κ ν : Type} [Ord κ]

/-- The table without entries. -/
def empty : Table κ ν := ⟨[], List.Pairwise.nil⟩

instance : Inhabited (Table κ ν) := ⟨empty⟩

instance : EmptyCollection (Table κ ν) := ⟨empty⟩

/-- The values, in ascending order of their keys. -/
def values (t : Table κ ν) : List ν := t.entries.map (·.2)

/-- The number of rows. -/
def size (t : Table κ ν) : Nat := t.entries.length

/-- The row of a key, if there is one. -/
def find? (t : Table κ ν) (key : κ) : Option ν :=
  (t.entries.find? fun e => compare e.1 key == .eq).map (·.2)

/-- Whether there is a row for the key. -/
def contains (t : Table κ ν) (key : κ) : Bool := (t.find? key).isSome

/-- The rows that pass a test, in their order. -/
def filter (t : Table κ ν) (p : κ → ν → Bool) : Table κ ν :=
  ⟨t.entries.filter fun e => p e.1 e.2, t.ascending.filter _⟩

/-- The table without the entry under a key. -/
def erase (t : Table κ ν) (key : κ) : Table κ ν :=
  t.filter fun k _ => compare k key != .eq

/-- Every value changed by a function of its key and itself. -/
def mapValues {μ : Type} (t : Table κ ν) (f : κ → ν → μ) : Table κ μ :=
  ⟨t.entries.map fun e => (e.1, f e.1 e.2), by
    have := t.ascending
    unfold Ascending at this ⊢
    rw [List.pairwise_map]
    exact this⟩

/-- The value under one key changed, if there is one. -/
def modify (t : Table κ ν) (key : κ) (f : ν → ν) : Table κ ν :=
  t.mapValues fun k v => if compare k key == .eq then f v else v

variable [Std.TransOrd κ] [Std.LawfulEqOrd κ]

/-- A value put under a key, in place of what stood there. -/
def insert (t : Table κ ν) (key : κ) (value : ν) : Table κ ν :=
  ⟨putEntry key value t.entries, ascending_putEntry t.ascending⟩

/-- The values of one table put over those of another. -/
def overlay (t : Table κ ν) (upper : Table κ ν) : Table κ ν :=
  upper.entries.foldl (fun acc e => acc.insert e.1 e.2) t

/-- What was put in is found. -/
theorem find?_insert_self (t : Table κ ν) (key : κ) (value : ν) :
    (t.insert key value).find? key = some value := by
  obtain ⟨entries, _⟩ := t
  unfold find? insert
  simp only
  induction entries with
  | nil => simp [putEntry]
  | cons head rest ih =>
    obtain ⟨k, v⟩ := head
    rename_i h
    have hRest := (List.pairwise_cons.1 h).2
    unfold putEntry
    split
    · simp
    · simp
    · rename_i hgt
      have : compare k key = .lt := Std.OrientedCmp.lt_of_gt hgt
      simp only [List.find?_cons, this]
      exact ih hRest

end Table

end PeerWatch
