import GpuListing.Registry
import GpuListing.Proofs.FamilyOrder

/-! # What is looked up in a registry

Look-ups after an entry is put, and what the listings of a registry hold in terms of look-ups. The order of
the table does not count in any of them. -/

namespace GpuListing.Registry

/-! ### Entries -/

theorem entry_put (r : Registry) (family other : Family) (entry : Entry) :
    (r.put family entry).entry other = if family = other then entry else r.entry other := by
  simp only [Registry.entry, put, Table.get?_set]
  split <;> rfl

section Put
variable (r : Registry) (family other : Family) (entry : Entry)

theorem info?_put : (r.put family entry).info? other = if family = other then entry.info? else r.info? other := by
  rw [info?, entry_put]
  split <;> rfl

theorem machine?_put :
    (r.put family entry).machine? other = if family = other then entry.machine? else r.machine? other := by
  rw [machine?, entry_put]
  split <;> rfl

theorem factory?_put :
    (r.put family entry).factory? other = if family = other then entry.factory? else r.factory? other := by
  rw [factory?, entry_put]
  split <;> rfl

variable {r family entry}

/-! What an entry does not change is looked up as before. -/

theorem info?_put_same (h : entry.info? = r.info? family) : (r.put family entry).info? other = r.info? other := by
  rw [info?_put]
  split
  · next he => rw [h, he]
  · rfl

theorem machine?_put_same (h : entry.machine? = r.machine? family) :
    (r.put family entry).machine? other = r.machine? other := by
  rw [machine?_put]
  split
  · next he => rw [h, he]
  · rfl

theorem factory?_put_same (h : entry.factory? = r.factory? family) :
    (r.put family entry).factory? other = r.factory? other := by
  rw [factory?_put]
  split
  · next he => rw [h, he]
  · rfl

end Put

theorem entry_of_perm {r r' : Registry} (h : r'.entries.entries.Perm r.entries.entries) (family : Family) :
    r'.entry family = r.entry family := by
  rw [entry, entry, Table.get?_of_perm h]

theorem info?_eq_some_iff (r : Registry) (family : Family) (info : TargetInfo) :
    r.info? family = some info ↔ ∃ entry, (family, entry) ∈ r.entries.entries ∧ entry.info? = some info := by
  simp only [← Table.get?_eq_some_iff]
  rw [info?, entry]
  cases h : r.entries.get? family with
  | none => simp
  | some entry => simp

/-! ### Listings -/

theorem mem_infos (r : Registry) (info : TargetInfo) : info ∈ r.infos ↔ ∃ family, r.info? family = some info := by
  simp only [infos, Table.values, List.mem_filterMap, List.mem_map, info?_eq_some_iff]
  constructor
  · rintro ⟨entry, ⟨⟨family, _⟩, hmem, rfl⟩, hinfo⟩
    exact ⟨family, _, hmem, hinfo⟩
  · rintro ⟨family, entry, hmem, hinfo⟩
    exact ⟨entry, ⟨_, hmem, rfl⟩, hinfo⟩

theorem mem_rivals (r : Registry) (family : Family) (info : TargetInfo) :
    info ∈ r.rivals family ↔ ∃ other, other ≠ family ∧ r.info? other = some info := by
  simp only [rivals, List.mem_filterMap, List.mem_filter, info?_eq_some_iff]
  constructor
  · rintro ⟨⟨other, entry⟩, ⟨hmem, hne⟩, hinfo⟩
    exact ⟨other, by simpa using hne, entry, hmem, hinfo⟩
  · rintro ⟨other, hne, entry, hmem, hinfo⟩
    exact ⟨(other, entry), ⟨hmem, by simpa using hne⟩, hinfo⟩

theorem mem_families (r : Registry) (family : Family) : family ∈ r.families ↔ (r.info? family).isSome = true := by
  rw [families, Family.mem_sort, List.mem_filter]
  refine ⟨fun h => h.2, fun h => ⟨?_, h⟩⟩
  obtain ⟨info, hinfo⟩ := Option.isSome_iff_exists.mp h
  obtain ⟨entry, hmem, -⟩ := (r.info?_eq_some_iff family info).mp hinfo
  exact List.mem_map.mpr ⟨_, hmem, rfl⟩

theorem pairwise_families (r : Registry) : r.families.Pairwise (· < ·) :=
  Family.pairwise_sort (List.filter_sublist.nodup r.entries.nodup)

/-- No triple clashes where the other families have none of them. -/
theorem findSome?_clash?_eq_none_iff (r : Registry) (info : TargetInfo) :
    (r.rivals info.family).findSome? (clash? info) = none ↔
      ∀ other known, other ≠ info.family → r.info? other = some known →
        ∀ triple ∈ info.triples, triple ∉ known.triples := by
  simp only [List.findSome?_eq_none_iff, mem_rivals, clash?, Option.map_eq_none_iff, List.find?_eq_none,
    TargetInfo.accepts, List.contains_iff_mem]
  constructor
  · exact fun h other known hne hknown => h known ⟨other, hne, hknown⟩
  · rintro h known ⟨other, hne, hknown⟩
    exact h other known hne hknown

end GpuListing.Registry
