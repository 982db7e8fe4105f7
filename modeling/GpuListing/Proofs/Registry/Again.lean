import GpuListing.Proofs.Registry.History
import GpuListing.Proofs.Registry.Reachable

/-! # Registering once more

What is there is not registered again. A machine model or a decoder that comes second is dropped without a word,
whatever it says. Target info that comes second is still asked for its triples: it is dropped without a word only
if no other family has one of them, as when they are all among those that the family has, and refused if one has. -/

namespace GpuListing.Registry

variable {r : Registry} {registration : Registration}

theorem attempt_of_present (present : r.isRegistered registration.family registration.stage = true) :
    (r.attempt registration).2 = r := by
  unfold Registry.attempt
  split
  · next hr =>
    rcases (registers_of_register hr).held_or_put with ⟨-, hsame⟩ | ⟨hnone, -⟩
    · exact hsame
    · rw [← isSome_held?, hnone] at present
      cases present
  · rfl

/-- What is present is taken again without effect, or it is target info that another family contests. -/
theorem WellFormed.again_cases (h : r.WellFormed)
    (present : r.isRegistered registration.family registration.stage = true) :
    (r.attempt registration = (.ok, r) ∧ ∀ info, registration = .info info → ∀ other, ¬ r.Contests other info) ∨
      ∃ info triple owner, registration = .info info ∧ r.Contests owner info ∧
        r.attempt registration = (.refused (.duplicateTriple triple owner), r) := by
  have same := attempt_of_present present
  cases registration with
  | info info =>
    rcases h.info_outcome info with ⟨owner, _, triple, contests, -, -, hrefused⟩ | ⟨hok, hfree⟩
    · exact .inr ⟨info, triple, owner, rfl, contests, hrefused⟩
    · refine .inl ⟨Prod.ext hok same, ?_⟩
      rintro _ ⟨rfl⟩
      exact hfree
  | machine model => exact .inl ⟨Prod.ext (attempt_machine_ok (h.info_of_machine model.family present)) same, nofun⟩
  | decoder family factory =>
    exact .inl ⟨Prod.ext (attempt_decoder_ok factory (h.machine_of_factory family present)) same, nofun⟩

theorem WellFormed.attempt_again (h : r.WellFormed)
    (present : r.isRegistered registration.family registration.stage = true)
    (free : ∀ info, registration = .info info → ∀ other, ¬ r.Contests other info) :
    r.attempt registration = (.ok, r) := by
  rcases h.again_cases present with ⟨hagain, -⟩ | ⟨info, _, owner, hinfo, contests, -⟩
  · exact hagain
  · exact absurd contests (free info hinfo owner)

/-- The triples that a family has are contested by no other. -/
theorem WellFormed.not_contests (h : r.WellFormed) {info known : TargetInfo} (hknown : r.info? info.family = some known)
    (within : info.triples ⊆ known.triples) (other : Family) : ¬ r.Contests other info := by
  rintro ⟨hne, theirs, htheirs, triple, ht, ht'⟩
  exact h.disjoint info.family other known theirs (Ne.symm hne) hknown htheirs triple (within ht) ht'

/-- In every registry that registrations lead to, a registration of what is present is noticed by no look-up. It is
    refused if it is target info that another family contests, on behalf of such a family, and not otherwise: never
    if its triples are among those that its family has. -/
theorem registered_again (reachable : r.Reachable)
    (present : r.isRegistered registration.family registration.stage = true) :
    (∀ later : Registry, later.entries.entries.Perm (r.attempt registration).2.entries.entries → r.Alike later) ∧
      ((r.attempt registration).1 = .ok ↔ ∀ info, registration = .info info → ∀ other, ¬ r.Contests other info) ∧
      ((r.attempt registration).1 ≠ .ok → ∃ info triple owner, registration = .info info ∧ r.Contests owner info ∧
        (r.attempt registration).1 = .refused (.duplicateTriple triple owner)) ∧
      ∀ info known, registration = .info info → r.info? info.family = some known →
        info.triples ⊆ known.triples → (r.attempt registration).1 = .ok := by
  have wellFormed := reachable.wellFormed
  refine ⟨fun later order => ?_, ?_, fun refused => ?_, ?_⟩
  · rw [attempt_of_present present] at order
    exact wellFormed.alike_of_perm order
  · rcases wellFormed.again_cases present with ⟨hagain, hfree⟩ | ⟨info, _, owner, hinfo, contests, hrefused⟩
    · exact ⟨fun _ => hfree, fun _ => by rw [hagain]⟩
    · rw [hrefused]
      exact ⟨nofun, fun free => absurd contests (free info hinfo owner)⟩
  · rcases wellFormed.again_cases present with ⟨hagain, -⟩ | ⟨info, triple, owner, hinfo, contests, hrefused⟩
    · exact absurd (congrArg Prod.fst hagain) refused
    · exact ⟨info, triple, owner, hinfo, contests, by rw [hrefused]⟩
  · rintro info known rfl hknown within
    have hagain := wellFormed.attempt_again present fun _ h other => by
      cases h
      exact wellFormed.not_contests hknown within other
    rw [hagain]

/-- B has come in between, and A is registered again with another name and one of its triples. -/
theorem renamed_again :
    let r := ((empty.attempt (.info ⟨⟨"A"⟩, "a", "", ["w", "x"]⟩)).2.attempt (.info ⟨⟨"B"⟩, "b", "", ["y"]⟩)).2
    let again : Registration := .info ⟨⟨"A"⟩, "another", "", ["x"]⟩
    r.Reachable ∧ r.isRegistered again.family again.stage = true ∧ (r.attempt again).1 = .ok ∧
      r.Alike (r.attempt again).2 := by
  intro r again
  have reachable : r.Reachable := .register _ (.register _ .empty)
  have present : r.isRegistered again.family again.stage = true := by decide
  obtain ⟨unnoticed, -, -, within⟩ := registered_again reachable present
  exact ⟨reachable, present, within _ ⟨⟨"A"⟩, "a", "", ["w", "x"]⟩ rfl (by decide) (by simp), unnoticed _ (.refl _)⟩

/-- B has come in between, and A is registered again with a triple of B, which is refused. -/
theorem foreign_triple_refused :
    let r := ((empty.attempt (.info ⟨⟨"A"⟩, "a", "", ["x"]⟩)).2.attempt (.info ⟨⟨"B"⟩, "b", "", ["y"]⟩)).2
    let again : Registration := .info ⟨⟨"A"⟩, "a", "", ["x", "y"]⟩
    r.Reachable ∧ r.isRegistered again.family again.stage = true ∧
      (r.attempt again).1 = .refused (.duplicateTriple "y" ⟨"B"⟩) :=
  ⟨.register _ (.register _ .empty), by decide, by decide⟩

end GpuListing.Registry
