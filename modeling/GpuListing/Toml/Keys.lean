import GpuListing.Text.Utf8
import GpuListing.Toml.Document

/-! # Keys of documents

A document has no key twice: each statement adds its key if it is new, and otherwise changes what the key has. The
fields of a document may be put in the order of their keys, which is that of their octets. -/

namespace GpuListing.Toml

/-- No key is there twice. -/
def Distinct (fields : Fields) : Prop := (fields.map Prod.fst).Nodup

/-! ### Documents have no key twice -/

/-- A change leaves no key twice if none was there twice. -/
def Keeps (change : Fields → Option Fields) : Prop :=
  ∀ {fields next}, Distinct fields → change fields = some next → Distinct next

theorem keys_alter {key : String} {change : Option Node → Option Node} {fields next : Fields}
    (h : alter key change fields = some next) :
    next.map Prod.fst =
      if key ∈ fields.map Prod.fst then fields.map Prod.fst else fields.map Prod.fst ++ [key] := by
  induction fields generalizing next with
  | nil =>
    obtain ⟨node, -, rfl⟩ := Option.map_eq_some_iff.1 h
    rfl
  | cons field rest ih =>
    obtain ⟨k, node⟩ := field
    rw [alter] at h
    split at h
    · next hk =>
      obtain ⟨changed, -, rfl⟩ := Option.map_eq_some_iff.1 h
      simp [hk]
    · next hk =>
      obtain ⟨changed, hchanged, rfl⟩ := Option.map_eq_some_iff.1 h
      simp only [List.map_cons, ih hchanged, List.mem_cons, Ne.symm hk, false_or]
      split <;> rfl

theorem keeps_alter (key : String) (change : Option Node → Option Node) : Keeps (alter key change) := by
  intro fields next hdistinct h
  rw [Distinct, keys_alter h]
  split
  · exact hdistinct
  · next hnew =>
    refine List.nodup_append.2 ⟨hdistinct, List.nodup_cons.2 ⟨List.not_mem_nil, List.nodup_nil⟩, fun k hk _ hkey => ?_⟩
    rintro rfl
    exact hnew (List.mem_singleton.1 hkey ▸ hk)

theorem keeps_insert (node : Node) (path : List String) : Keeps (insert node path) := by
  intro fields next hdistinct h
  match path with
  | [] => cases h
  | [key] => exact keeps_alter key _ hdistinct h
  | key :: _ :: _ => exact keeps_alter key _ hdistinct h

theorem keeps_within {change : Fields → Option Fields} (hchange : Keeps change) (path : List String) :
    Keeps (within change path) := by
  intro fields next hdistinct h
  cases path with
  | nil => exact hchange hdistinct h
  | cons key path => exact keeps_alter key _ hdistinct h

theorem distinct_add {draft next : Draft} {statement : Statement} (hdistinct : Distinct draft.fields)
    (h : draft.add statement = some next) : Distinct next.fields := by
  cases statement with
  | header path | row path =>
    obtain ⟨last, -, h⟩ := Option.bind_eq_some_iff.1 h
    obtain ⟨fields, hfields, h⟩ := Option.bind_eq_some_iff.1 h
    cases h
    exact keeps_within (keeps_alter last _) path.dropLast hdistinct hfields
  | entry path node =>
    obtain ⟨fields, hfields, h⟩ := Option.bind_eq_some_iff.1 h
    cases h
    exact keeps_within (keeps_insert node path) draft.place hdistinct hfields

theorem distinct_foldlM {statements : List Statement} {draft next : Draft} (hdistinct : Distinct draft.fields)
    (h : statements.foldlM Draft.add draft = some next) : Distinct next.fields := by
  induction statements generalizing draft with
  | nil => cases h; exact hdistinct
  | cons statement rest ih =>
    rw [List.foldlM_cons] at h
    obtain ⟨between, hbetween, h⟩ := Option.bind_eq_some_iff.1 h
    exact ih (distinct_add hdistinct hbetween) h

/-- A document has no key twice. -/
theorem distinct_of_parse {text : String} {fields : Fields} (h : parse text = some fields) : Distinct fields := by
  obtain ⟨found, -, h⟩ := Option.bind_eq_some_iff.1 h
  obtain ⟨draft, hdraft, h⟩ := Option.bind_eq_some_iff.1 h
  cases h
  have hempty : Distinct [] := List.nodup_nil
  exact distinct_foldlM hempty hdraft

/-! ### The order of keys -/

/-- The key of no field comes before one in front of it. -/
def Ordered (fields : Fields) : Prop := fields.Pairwise fun a b => Text.octets a.1.toList ≤ Text.octets b.1.toList

/-- The fields in the order of their keys. -/
def sorted (fields : Fields) : Fields :=
  fields.mergeSort fun a b => !decide (Text.octets b.1.toList < Text.octets a.1.toList)

theorem perm_sorted (fields : Fields) : (sorted fields).Perm fields := List.mergeSort_perm fields _

theorem Distinct.sorted {fields : Fields} (h : Distinct fields) : Distinct (sorted fields) :=
  ((perm_sorted fields).map Prod.fst).nodup_iff.2 h

end GpuListing.Toml
