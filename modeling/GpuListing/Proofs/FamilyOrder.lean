import GpuListing.Family
import GpuListing.Proofs.Library.Lists

/-! # The order of families

Families are ordered by the octets of their names. The octets tell the name, so the order is a linear one,
and sorting families of which none comes twice puts them in strictly increasing order, in which the same
families make the same list. -/

namespace GpuListing.Family

theorem octets_injective {f g : Family} (h : f.octets = g.octets) : f = g := by
  obtain ⟨name⟩ := f
  obtain ⟨other⟩ := g
  have hencode : name.toList.utf8Encode = other.toList.utf8Encode := congrArg List.toByteArray h
  rw [String.utf8Encode_toList, String.utf8Encode_toList, String.toByteArray_inj] at hencode
  rw [hencode]

/-- Of two families that are not the same, one comes first. -/
theorem lt_of_not_lt {f g : Family} (hne : f ≠ g) (h : ¬ g < f) : f < g := by
  rcases List.le_iff_lt_or_eq.mp (List.not_lt.mp h) with hlt | heq
  · exact hlt
  · exact absurd (octets_injective heq) hne

theorem mem_sort {f : Family} {families : List Family} : f ∈ sort families ↔ f ∈ families := List.mem_mergeSort

/-- Families of which none comes twice are sorted in strictly increasing order. -/
theorem pairwise_sort {families : List Family} (nodup : families.Nodup) : (sort families).Pairwise (· < ·) := by
  have hsorted : (sort families).Pairwise fun f g => f.octets ≤ g.octets := pairwise_mergeSort_octets octets families
  have hdistinct : (sort families).Nodup := (List.mergeSort_perm families _).nodup_iff.mpr nodup
  exact hdistinct.imp₂ (fun f g hne h => lt_of_not_lt hne (List.not_lt.mpr h)) hsorted

theorem nodup_of_pairwise {families : List Family} (h : families.Pairwise (· < ·)) : families.Nodup := by
  refine h.imp ?_
  rintro f _ hlt rfl
  exact List.lt_irrefl f.octets hlt

/-- Lists in strictly increasing order that hold the same families are the same list. -/
theorem eq_of_pairwise {families families' : List Family} (h : families.Pairwise (· < ·))
    (h' : families'.Pairwise (· < ·)) (same : ∀ f, f ∈ families ↔ f ∈ families') : families = families' := by
  have perm := (List.perm_ext_iff_of_nodup (nodup_of_pairwise h) (nodup_of_pairwise h')).mpr same
  exact perm.eq_of_pairwise (fun f g _ _ hfg hgf => absurd hgf (List.lt_asymm hfg)) h h'

end GpuListing.Family
