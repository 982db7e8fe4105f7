import GpuListing.Proofs.Capability.Attempt
import GpuListing.Proofs.Registry.Invariant
import GpuListing.Toolkit

/-! # Reachable registries

A registry comes of registrations, made directly or by the primitives of toolkits, which an attempt on a state
may call. Whatever was registered or refused, and whichever order the table has at any moment, it is well
formed. -/

namespace GpuListing

namespace Registry

/-- The registry comes of registrations, direct ones or those of toolkits; its table may be put in another
    order at any moment. -/
inductive Reachable : Registry → Prop where
  | empty : Reachable .empty
  | register {r : Registry} (registration : Registration) : Reachable r → Reachable (r.attempt registration).2
  | activate {r : Registry} (toolkit : Toolkit) (stage : Stage) (family : Family) :
      Reachable r → Reachable (toolkit.provider stage family r).2
  | ensureReady {r : Registry} (toolkit : Toolkit) (readiness : Readiness) (family : Family) :
      Reachable r → Reachable (readiness.ensureReady toolkit.provider family r).world
  | reorder {r r' : Registry} : Reachable r → r'.entries.entries.Perm r.entries.entries → Reachable r'

theorem WellFormed.provider {r : Registry} (h : r.WellFormed) (toolkit : Toolkit) (stage : Stage) (family : Family) :
    (toolkit.provider stage family r).2.WellFormed := by
  unfold Toolkit.provider
  split
  · exact h
  · exact h.attempt _

theorem Reachable.wellFormed {r : Registry} (h : r.Reachable) : r.WellFormed := by
  induction h with
  | empty => exact wellFormed_empty
  | register registration _ ih => exact ih.attempt registration
  | activate toolkit stage family _ ih => exact ih.provider toolkit stage family
  | ensureReady toolkit readiness family _ ih =>
    exact Readiness.ensureReady_world (fun stage family _ h => h.provider toolkit stage family) family readiness ih
  | reorder _ order ih => exact ih.of_perm order

/-- Of a registry that registrations lead to, whichever order its table has: a decoder is registered only
    with a machine model and a machine model only with target info; both name the family; no triple belongs
    to two families, so that the family of a triple is the only one whose info lists it; and the families with
    target info are listed in strictly increasing order. -/
theorem representation {r : Registry} (reachable : r.Reachable) {r' : Registry}
    (order : r'.entries.entries.Perm r.entries.entries) :
    (∀ family, (r'.factory? family).isSome = true → (r'.machine? family).isSome = true) ∧
      (∀ family, (r'.machine? family).isSome = true → (r'.info? family).isSome = true) ∧
      (∀ family info, r'.info? family = some info → info.family = family) ∧
      (∀ family model, r'.machine? family = some model → model.family = family) ∧
      (∀ family other info known, family ≠ other → r'.info? family = some info → r'.info? other = some known →
        ∀ triple ∈ info.triples, triple ∉ known.triples) ∧
      (∀ triple family, r'.familyFor? triple = some family ↔
        ∃ info, r.info? family = some info ∧ triple ∈ info.triples) ∧
      (∀ triple family other, (∃ info, r.info? family = some info ∧ triple ∈ info.triples) →
        (∃ info, r.info? other = some info ∧ triple ∈ info.triples) → family = other) ∧
      r'.families.Pairwise (· < ·) ∧ ∀ family, family ∈ r'.families ↔ (r.info? family).isSome = true := by
  have wellFormed := reachable.wellFormed
  have wellFormed' := wellFormed.of_perm order
  have hinfo : ∀ family, r'.info? family = r.info? family := fun family => by
    rw [info?, entry_of_perm order, info?]
  refine ⟨wellFormed'.machine_of_factory, wellFormed'.info_of_machine, wellFormed'.info_family,
    wellFormed'.machine_family, wellFormed'.disjoint, fun triple family => ?_, ?_, r'.pairwise_families,
    fun family => ?_⟩
  · rw [wellFormed'.familyFor?_eq_some_iff, hinfo]
  · rintro triple family other ⟨info, hi, ht⟩ ⟨known, hk, ht'⟩
    exact wellFormed.family_unique hi ht hk ht'
  · rw [mem_families, hinfo]

/-- The second family is refused the triple of the first one, and comes first in the table. -/
theorem refused_triple_representation :
    let first : TargetInfo := ⟨⟨"A"⟩, "a", "", ["x"]⟩
    let both : TargetInfo := ⟨⟨"B"⟩, "b", "", ["y", "x"]⟩
    let second : TargetInfo := ⟨⟨"B"⟩, "b", "", ["y"]⟩
    let r := (((Registry.empty.attempt (.info first)).2.attempt (.info both)).2.attempt (.info second)).2
    let r' : Registry := ⟨⟨r.entries.entries.reverse, by decide⟩⟩
    r.Reachable ∧ r'.entries.entries.Perm r.entries.entries ∧ r'.infos = [second, first] ∧
      r'.familyFor? "x" = some ⟨"A"⟩ := by
  intro first both second r r'
  have reachable : r.Reachable := .register _ (.register _ (.register _ .empty))
  have order : r'.entries.entries.Perm r.entries.entries := List.reverse_perm _
  obtain ⟨-, -, -, -, -, hfamily, -⟩ := representation reachable order
  exact ⟨reachable, order, by decide, (hfamily "x" ⟨"A"⟩).mpr ⟨first, by decide, by decide⟩⟩

end Registry

end GpuListing
