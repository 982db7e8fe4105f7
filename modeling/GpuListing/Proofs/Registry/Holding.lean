import GpuListing.Proofs.Registry.Growth

/-! # What a registry holds

The look-ups of a family as one: what is registered for it at a stage. A registration that is not refused is
held from then on where nothing was held before, and changes nothing else. No look-up tells two well-formed
registries apart that hold the same. -/

namespace GpuListing

open Registry

/-- What an entry has at a stage. -/
def Entry.held? (entry : Entry) (family : Family) : Stage → Option Registration
  | .metadata => entry.info?.map .info
  | .machineModel => entry.machine?.map .machine
  | .decoder => entry.factory?.map (.decoder family)

/-- The entry with what is registered in its place. -/
def Entry.hold (entry : Entry) : Registration → Entry
  | .info info => { entry with info? := some info }
  | .machine model => { entry with machine? := some model }
  | .decoder _ factory => { entry with factory? := some factory }

theorem Entry.held?_hold (entry : Entry) (registration : Registration) (stage : Stage) :
    (entry.hold registration).held? registration.family stage =
      if registration.stage = stage then some registration else entry.held? registration.family stage := by
  cases registration <;> cases stage <;> rfl

namespace Registry

/-- What is registered for a family at a stage. -/
def held? (r : Registry) (family : Family) (stage : Stage) : Option Registration :=
  (r.entry family).held? family stage

section Held
variable (r : Registry) (family : Family)

theorem held?_info (info : TargetInfo) :
    r.held? family .metadata = some (.info info) ↔ r.info? family = some info := by
  simp [held?, Entry.held?, info?]

theorem held?_machine (model : MachineModel) :
    r.held? family .machineModel = some (.machine model) ↔ r.machine? family = some model := by
  simp [held?, Entry.held?, machine?]

theorem held?_decoder (factory : Factory) :
    r.held? family .decoder = some (.decoder family factory) ↔ r.factory? family = some factory := by
  simp [held?, Entry.held?, factory?]

theorem isSome_held? (stage : Stage) : (r.held? family stage).isSome = r.isRegistered family stage := by
  cases stage <;> simp [held?, Entry.held?, isRegistered, info?, machine?, factory?]

theorem held?_empty (stage : Stage) : empty.held? family stage = none := by cases stage <;> rfl

theorem held?_put (entry : Entry) (other : Family) (stage : Stage) :
    (r.put family entry).held? other stage = if family = other then entry.held? other stage else r.held? other stage := by
  rw [held?, entry_put]
  split <;> rfl

variable {r}

theorem held?_of_perm {r' : Registry} (order : r'.entries.entries.Perm r.entries.entries) (stage : Stage) :
    r'.held? family stage = r.held? family stage := by
  rw [held?, entry_of_perm order, held?]

end Held

/-! ### Registrations -/

theorem Registers.held_or_put {r next : Registry} {registration : Registration} (h : Registers r registration next) :
    ((r.held? registration.family registration.stage).isSome = true ∧ next = r) ∨
      (r.held? registration.family registration.stage = none ∧
        next = r.put registration.family ((r.entry registration.family).hold registration)) := by
  cases h with
  | again hs => exact .inl ⟨(r.isSome_held? _ _).trans hs, rfl⟩
  | info info hnone _ => exact .inr ⟨Option.map_eq_none_iff.mpr hnone, rfl⟩
  | machine model _ hnone => exact .inr ⟨Option.map_eq_none_iff.mpr hnone, rfl⟩
  | decoder owner factory _ hnone => exact .inr ⟨Option.map_eq_none_iff.mpr hnone, rfl⟩

theorem Registers.held?_eq {r next : Registry} {registration : Registration} (h : Registers r registration next)
    (family : Family) (stage : Stage) :
    next.held? family stage = (r.held? family stage).or
      (if registration.family = family ∧ registration.stage = stage then some registration else none) := by
  rcases h.held_or_put with ⟨hheld, rfl⟩ | ⟨hnone, rfl⟩
  · obtain ⟨known, hknown⟩ := Option.isSome_iff_exists.mp hheld
    split
    · next hn =>
      obtain ⟨rfl, rfl⟩ := hn
      rw [hknown, Option.some_or]
    · rw [Option.or_none]
  · rw [held?_put]
    by_cases hf : registration.family = family
    · subst hf
      rw [if_pos rfl, Entry.held?_hold]
      by_cases hs : registration.stage = stage
      · subst hs
        rw [if_pos rfl, hnone, if_pos ⟨rfl, rfl⟩, Option.none_or]
      · rw [if_neg hs, if_neg fun hn => hs hn.2, Option.or_none, held?]
    · rw [if_neg hf, if_neg fun hn => hf hn.1, Option.or_none]

/-- A registration is held if it is not refused and nothing was held in its place; all else is held as before. -/
theorem held?_attempt (r : Registry) (registration : Registration) (family : Family) (stage : Stage) :
    (r.attempt registration).2.held? family stage = (r.held? family stage).or
      (if (r.attempt registration).1 = .ok ∧ registration.family = family ∧ registration.stage = stage
        then some registration else none) := by
  unfold Registry.attempt
  split
  · next hr => simpa only [true_and] using (registers_of_register hr).held?_eq family stage
  · simp

/-! ### Registries that hold the same -/

/-- No look-up tells the registries apart. -/
structure Alike (r r' : Registry) : Prop where
  info : ∀ family, r'.info? family = r.info? family
  machine : ∀ family, r'.machine? family = r.machine? family
  factory : ∀ family, r'.factory? family = r.factory? family
  familyFor : ∀ triple, r'.familyFor? triple = r.familyFor? triple
  families : r'.families = r.families

/-- The triples of a well-formed registry have one family each, so the order of the table does not count. -/
theorem WellFormed.alike {r r' : Registry} (h : r.WellFormed) (h' : r'.WellFormed)
    (same : ∀ family stage, r'.held? family stage = r.held? family stage) : r.Alike r' := by
  have hinfo : ∀ family, r'.info? family = r.info? family := fun family => by
    refine Option.ext fun info => ?_
    rw [← held?_info, ← held?_info, same]
  have hmachine : ∀ family, r'.machine? family = r.machine? family := fun family => by
    refine Option.ext fun model => ?_
    rw [← held?_machine, ← held?_machine, same]
  have hfactory : ∀ family, r'.factory? family = r.factory? family := fun family => by
    refine Option.ext fun factory => ?_
    rw [← held?_decoder, ← held?_decoder, same]
  refine ⟨hinfo, hmachine, hfactory, fun triple => Option.ext fun family => ?_, ?_⟩
  · rw [h.familyFor?_eq_some_iff, h'.familyFor?_eq_some_iff, hinfo]
  · refine Family.eq_of_pairwise r'.pairwise_families r.pairwise_families fun family => ?_
    rw [mem_families, mem_families, hinfo]

theorem WellFormed.alike_of_perm {r r' : Registry} (h : r.WellFormed)
    (order : r'.entries.entries.Perm r.entries.entries) : r.Alike r' :=
  h.alike (h.of_perm order) fun family stage => held?_of_perm family order stage

end Registry

end GpuListing
