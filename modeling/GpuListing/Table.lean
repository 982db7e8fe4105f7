/-! # Tables

A table keeps one value for a key and remembers the order in which keys came. `get?` reads it, `set` writes
it: a key that is there keeps its place, a new one comes last. `get?_set` is all that a reader needs. -/

namespace GpuListing

/-- A list of keys with their values, no key twice. -/
structure Table (κ ν : Type) where
  entries : List (κ × ν)
  nodup : (entries.map Prod.fst).Nodup

namespace Table

variable {κ ν : Type}

/-- The table without keys. -/
def empty : Table κ ν := ⟨[], List.nodup_nil⟩

/-- The keys, in the order in which they came. -/
def keys (t : Table κ ν) : List κ := t.entries.map Prod.fst

/-- The values, in the order in which their keys came. -/
def values (t : Table κ ν) : List ν := t.entries.map Prod.snd

variable [DecidableEq κ]

/-- The value of the first entry with the key. -/
def lookup (key : κ) : List (κ × ν) → Option ν
  | [] => none
  | (k, v) :: rest => if k = key then some v else lookup key rest

/-- The entries with a new value for the key, which comes last if it is new. -/
def replace (key : κ) (value : ν) : List (κ × ν) → List (κ × ν)
  | [] => [(key, value)]
  | (k, v) :: rest => if k = key then (k, value) :: rest else (k, v) :: replace key value rest

theorem keys_replace (key : κ) (value : ν) (entries : List (κ × ν)) :
    (replace key value entries).map Prod.fst =
      if key ∈ entries.map Prod.fst then entries.map Prod.fst else entries.map Prod.fst ++ [key] := by
  induction entries with
  | nil => rfl
  | cons entry rest ih =>
    obtain ⟨k, v⟩ := entry
    by_cases hk : k = key
    · simp [replace, hk]
    · have hk' : ¬ key = k := fun h => hk h.symm
      simp only [replace, hk, if_false, List.map_cons, ih, List.mem_cons, hk', false_or]
      split <;> rfl

/-- The value kept for a key. -/
def get? (t : Table κ ν) (key : κ) : Option ν := lookup key t.entries

/-- The key has a value. -/
def contains (t : Table κ ν) (key : κ) : Bool := (t.get? key).isSome

/-- The table with a new value for the key. -/
def set (t : Table κ ν) (key : κ) (value : ν) : Table κ ν where
  entries := replace key value t.entries
  nodup := by
    rw [keys_replace]
    split
    · exact t.nodup
    · next h =>
      exact List.nodup_append.mpr ⟨t.nodup, by simp, by
        intro a ha b hb
        rw [List.mem_singleton.mp hb]
        intro hab
        exact h (hab ▸ ha)⟩

/-- The table with the listed values set one after another. -/
def ofList (entries : List (κ × ν)) : Table κ ν := entries.foldl (fun t entry => t.set entry.1 entry.2) empty

/-! ### What reading finds after writing -/

theorem lookup_replace (key other : κ) (value : ν) (entries : List (κ × ν)) :
    lookup other (replace key value entries) = if key = other then some value else lookup other entries := by
  induction entries with
  | nil => simp [replace, lookup]
  | cons entry rest ih =>
    obtain ⟨k, v⟩ := entry
    by_cases hk : k = key
    · subst hk; by_cases ho : k = other <;> simp [replace, lookup, ho]
    · by_cases ho : k = other
      · subst ho
        have hk' : ¬ key = k := fun h => hk h.symm
        simp [replace, lookup, hk, hk']
      · simp [replace, lookup, hk, ho, ih]

theorem get?_set (t : Table κ ν) (key other : κ) (value : ν) :
    (t.set key value).get? other = if key = other then some value else t.get? other :=
  lookup_replace key other value t.entries

theorem replace_replace (key : κ) (first second : ν) (entries : List (κ × ν)) :
    replace key second (replace key first entries) = replace key second entries := by
  induction entries with
  | nil => simp [replace]
  | cons entry rest ih =>
    obtain ⟨k, v⟩ := entry
    by_cases hk : k = key <;> simp [replace, hk, ih]

/-- Of two values set for a key, the last one stays. -/
theorem set_set (t : Table κ ν) (key : κ) (first second : ν) :
    (t.set key first).set key second = t.set key second := by
  simp only [set, replace_replace]

theorem keys_set (t : Table κ ν) (key : κ) (value : ν) :
    (t.set key value).keys = if key ∈ t.keys then t.keys else t.keys ++ [key] :=
  keys_replace key value t.entries

theorem lookup_isSome (key : κ) (entries : List (κ × ν)) :
    (lookup key entries).isSome = true ↔ key ∈ entries.map Prod.fst := by
  induction entries with
  | nil => simp [lookup]
  | cons entry rest ih =>
    obtain ⟨k, v⟩ := entry
    by_cases hk : k = key
    · simp [lookup, hk]
    · have hk' : ¬ key = k := fun h => hk h.symm
      simp only [lookup, hk, if_false, ih, List.map_cons, List.mem_cons, hk', false_or]

theorem lookup_eq_some_iff {key : κ} {value : ν} {entries : List (κ × ν)}
    (nodup : (entries.map Prod.fst).Nodup) : lookup key entries = some value ↔ (key, value) ∈ entries := by
  induction entries with
  | nil => simp [lookup]
  | cons entry rest ih =>
    obtain ⟨k, v⟩ := entry
    obtain ⟨hnot, hrest⟩ := List.nodup_cons.mp nodup
    by_cases hk : k = key
    · subst hk
      have hne : (k, value) ∉ rest := fun hmem => hnot (List.mem_map.mpr ⟨_, hmem, rfl⟩)
      simp [lookup, hne, eq_comm]
    · simp [lookup, hk, Ne.symm hk, ih hrest]

/-- What is read for a key is what is entered for it. -/
theorem get?_eq_some_iff (t : Table κ ν) (key : κ) (value : ν) :
    t.get? key = some value ↔ (key, value) ∈ t.entries := lookup_eq_some_iff t.nodup

/-- Reading does not depend on the order of the entries. -/
theorem get?_of_perm {t t' : Table κ ν} (h : t'.entries.Perm t.entries) (key : κ) : t'.get? key = t.get? key := by
  refine Option.ext fun value => ?_
  rw [get?_eq_some_iff, get?_eq_some_iff, h.mem_iff]

theorem mem_keys_set (t : Table κ ν) (key other : κ) (value : ν) :
    other ∈ (t.set key value).keys ↔ other = key ∨ other ∈ t.keys := by
  rw [keys_set]
  split
  · next h => exact ⟨.inr, fun ho => ho.elim (fun he => he ▸ h) id⟩
  · rw [List.mem_append, List.mem_singleton, or_comm]

end Table

end GpuListing
