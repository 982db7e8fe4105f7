import GpuListing.Proofs.Registry.Holding

/-! # What the history of a registry tells

The registrations that a registry has taken, with what came of each, tell all that is looked up in it: the first
one of its kind that was not refused counts, and none after it. So they also tell what comes of the next one. -/

namespace GpuListing.Registry

/-- A registration, and what came of it. -/
structure Submission where
  registration : Registration
  outcome : Outcome

/-- Submissions lead from one registry to another; the table may come into another order at any moment. -/
inductive Takes (r : Registry) : List Submission → Registry → Prop where
  | nil : Takes r [] r
  | submit {history : List Submission} {next : Registry} (registration : Registration) : Takes r history next →
      Takes r (history ++ [⟨registration, (next.attempt registration).1⟩]) (next.attempt registration).2
  | reorder {history : List Submission} {next next' : Registry} : Takes r history next →
      next'.entries.entries.Perm next.entries.entries → Takes r history next'

/-- The first registration for a family at a stage that was not refused. -/
def accepted? (history : List Submission) (family : Family) (stage : Stage) : Option Registration :=
  (history.find? fun s => s.outcome = .ok ∧ s.registration.family = family ∧ s.registration.stage = stage).map
    Submission.registration

theorem accepted?_concat (history : List Submission) (s : Submission) (family : Family) (stage : Stage) :
    accepted? (history ++ [s]) family stage = (accepted? history family stage).or
      (if s.outcome = .ok ∧ s.registration.family = family ∧ s.registration.stage = stage
        then some s.registration else none) := by
  rw [accepted?, List.find?_append, Option.map_or, accepted?, List.find?_singleton]
  congr 1
  simp only [decide_eq_true_eq]
  split <;> rfl

namespace Takes
variable {r next : Registry} {history : List Submission}

theorem wellFormed (h : r.Takes history next) (wellFormed : r.WellFormed) : next.WellFormed := by
  induction h with
  | nil => exact wellFormed
  | submit registration _ ih => exact ih.attempt registration
  | reorder _ order ih => exact ih.of_perm order

theorem grows (h : r.Takes history next) : r.Grows next := by
  induction h with
  | nil => exact .refl r
  | submit registration _ ih => exact ih.trans (grows_attempt _ registration)
  | reorder _ order ih => exact ih.trans (.of_perm order)

/-- A registry that was empty at first holds what was accepted first. -/
theorem held?_eq (h : empty.Takes history next) (family : Family) (stage : Stage) :
    next.held? family stage = accepted? history family stage := by
  induction h with
  | nil => exact held?_empty family stage
  | submit registration _ ih => rw [held?_attempt, accepted?_concat, ih]
  | reorder _ order ih => rw [held?_of_perm family order, ih]

end Takes

/-! ### What comes of a registration -/

theorem attempt_machine_eq (r : Registry) (model : MachineModel) :
    (r.attempt (.machine model)).1 =
      if (r.info? model.family).isSome then .ok else .refused (.missingPrerequisite .metadata) := by
  split
  · next hinfo => exact attempt_machine_ok hinfo
  · next hinfo =>
    rw [Option.not_isSome_iff_eq_none, info?] at hinfo
    simp only [Registry.attempt, register, registerMachine, hinfo]

theorem attempt_decoder_eq (r : Registry) (family : Family) (factory : Factory) :
    (r.attempt (.decoder family factory)).1 =
      if (r.machine? family).isSome then .ok else .refused (.missingPrerequisite .machineModel) := by
  split
  · next hmachine => exact attempt_decoder_ok factory hmachine
  · next hmachine =>
    rw [Option.not_isSome_iff_eq_none, machine?] at hmachine
    simp only [Registry.attempt, register, registerDecoder, hmachine]

/-- Target info is refused on behalf of a family that contests it, for the first triple that this one has. -/
theorem WellFormed.info_outcome {r : Registry} (h : r.WellFormed) (info : TargetInfo) :
    (∃ owner known triple, r.Contests owner info ∧ r.info? owner = some known ∧
      info.triples.find? known.accepts = some triple ∧
      r.attempt (.info info) = (.refused (.duplicateTriple triple owner), r)) ∨
    ((r.attempt (.info info)).1 = .ok ∧ ∀ other, ¬ r.Contests other info) := by
  -- The owner that is told is the family that the known info names, which is the one it is stored for.
  rcases r.attempt_info_find info with ⟨owner, known, triple, hne, hknown, hfind, hrefused⟩ | haccepted
  · obtain ⟨ht, ht'⟩ := mem_of_find?_accepts hfind
    rw [h.info_family owner known hknown] at hrefused
    exact .inl ⟨owner, known, triple, ⟨hne, known, hknown, triple, ht, ht'⟩, hknown, hfind, hrefused⟩
  · exact .inr haccepted

theorem attempt_of_refused {r : Registry} {registration : Registration} (h : (r.attempt registration).1 ≠ .ok) :
    (r.attempt registration).2 = r := by
  unfold Registry.attempt at h ⊢
  split
  · next hr => simp [hr] at h
  · rfl

/-! ### The law of histories -/

/-- Of a registry that has taken any submissions, with its table in any order at any moment: it holds what was
    accepted first, and goes on to hold it; a machine model is refused exactly without target info, a decoder
    exactly without a machine model, and target info exactly if another family has one of its triples, which is
    told along with the first such triple if there is one such family only; and no look-up notices a registration
    that is refused. -/
theorem told_by_history {history : List Submission} {r : Registry} (taken : empty.Takes history r) :
    (∀ family info, r.info? family = some info ↔ accepted? history family .metadata = some (.info info)) ∧
      (∀ family model, r.machine? family = some model ↔
        accepted? history family .machineModel = some (.machine model)) ∧
      (∀ family factory, r.factory? family = some factory ↔
        accepted? history family .decoder = some (.decoder family factory)) ∧
      (∀ more later, r.Takes more later → r.Grows later) ∧
      (∀ model, (r.attempt (.machine model)).1 =
        if (r.info? model.family).isSome then .ok else .refused (.missingPrerequisite .metadata)) ∧
      (∀ family factory, (r.attempt (.decoder family factory)).1 =
        if (r.machine? family).isSome then .ok else .refused (.missingPrerequisite .machineModel)) ∧
      (∀ info, (r.attempt (.info info)).1 = .ok ∨
        ∃ triple owner, (r.attempt (.info info)).1 = .refused (.duplicateTriple triple owner)) ∧
      (∀ info, (r.attempt (.info info)).1 ≠ .ok ↔ ∃ other, r.Contests other info) ∧
      (∀ info other, r.Contests other info → (∀ another, r.Contests another info → another = other) →
        ∃ known triple, r.info? other = some known ∧ info.triples.find? known.accepts = some triple ∧
          (r.attempt (.info info)).1 = .refused (.duplicateTriple triple other)) ∧
      ∀ registration, (r.attempt registration).1 ≠ .ok → ∀ later : Registry,
        later.entries.entries.Perm (r.attempt registration).2.entries.entries → r.Alike later := by
  have wellFormed := taken.wellFormed wellFormed_empty
  refine ⟨fun family info => ?_, fun family model => ?_, fun family factory => ?_, fun _ _ more => more.grows,
    r.attempt_machine_eq, r.attempt_decoder_eq, fun info => ?_, fun info => ?_, fun info other contests only => ?_,
    fun registration refused later order => ?_⟩
  · rw [← held?_info, taken.held?_eq]
  · rw [← held?_machine, taken.held?_eq]
  · rw [← held?_decoder, taken.held?_eq]
  · rcases wellFormed.info_outcome info with ⟨owner, _, triple, -, -, -, hrefused⟩ | ⟨hok, -⟩
    · exact .inr ⟨triple, owner, by rw [hrefused]⟩
    · exact .inl hok
  · rcases wellFormed.info_outcome info with ⟨owner, _, _, contests, -, -, hrefused⟩ | ⟨hok, hfree⟩
    · exact ⟨fun _ => ⟨owner, contests⟩, fun _ => by rw [hrefused]; exact nofun⟩
    · exact ⟨fun hne => absurd hok hne, fun ⟨other, contests⟩ => absurd contests (hfree other)⟩
  · rcases wellFormed.info_outcome info with ⟨owner, known, triple, contests', hknown, hfind, hrefused⟩ | ⟨-, hfree⟩
    · obtain rfl := only owner contests'
      exact ⟨known, triple, hknown, hfind, by rw [hrefused]⟩
    · exact absurd contests (hfree other)
  · rw [attempt_of_refused refused] at order
    exact wellFormed.alike_of_perm order

/-- A is registered, B is refused a triple of A, and A is registered once more with another triple, to no effect.
    C is then refused the second of its triples, the first one that is known. -/
theorem second_info_told :
    let first : Registration := .info ⟨⟨"A"⟩, "a", "", ["x"]⟩
    let both : Registration := .info ⟨⟨"B"⟩, "b", "", ["y", "x"]⟩
    let again : Registration := .info ⟨⟨"A"⟩, "a", "", ["z"]⟩
    let last : TargetInfo := ⟨⟨"C"⟩, "c", "", ["y", "x", "z"]⟩
    let r := (((empty.attempt first).2.attempt both).2.attempt again).2
    let history : List Submission := [⟨first, .ok⟩, ⟨both, .refused (.duplicateTriple "x" ⟨"A"⟩)⟩, ⟨again, .ok⟩]
    empty.Takes history r ∧ r.info? ⟨"A"⟩ = some ⟨⟨"A"⟩, "a", "", ["x"]⟩ ∧
      (r.attempt (.info last)).1 = .refused (.duplicateTriple "x" ⟨"A"⟩) := by
  intro first both again last r history
  have taken : empty.Takes history r := ((Takes.nil.submit first).submit both).submit again
  obtain ⟨hinfo, -, -, -, -, -, -, -, hnamed, -⟩ := told_by_history taken
  have hA : r.info? ⟨"A"⟩ = some ⟨⟨"A"⟩, "a", "", ["x"]⟩ := (hinfo _ _).mpr rfl
  have only : ∀ another, r.Contests another last → another = ⟨"A"⟩ := by
    rintro another ⟨-, known, hknown, -⟩
    obtain ⟨entry, hmem, -⟩ := (r.info?_eq_some_iff another known).mp hknown
    have hentries : r.entries.entries = [(⟨"A"⟩, ⟨some ⟨⟨"A"⟩, "a", "", ["x"]⟩, none, none⟩)] := rfl
    rw [hentries, List.mem_singleton] at hmem
    exact congrArg Prod.fst hmem
  obtain ⟨known, triple, hknown, hfind, hrefused⟩ := hnamed last ⟨"A"⟩
    ⟨by decide, _, hA, "x", by decide, by decide⟩ only
  cases hA.symm.trans hknown
  cases hfind.symm.trans (show _ = some "x" by decide)
  exact ⟨taken, hA, hrefused⟩

end GpuListing.Registry
