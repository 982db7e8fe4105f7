import GpuListing.Proofs.Registry.Lookup

/-! # Well-formed registries

What every registration keeps: the stages of a family are registered in order, what is registered for a family
names it, and no triple belongs to two families. In a registry like that a triple is looked up with a single
answer, whichever order the table has. -/

namespace GpuListing.Registry

/-! ### Registrations -/

/-- The registrations that are not refused, with the registry before and after. -/
inductive Registers (r : Registry) : Registration → Registry → Prop where
  /-- The stage is registered already. -/
  | again {registration : Registration} : r.isRegistered registration.family registration.stage = true →
      Registers r registration r
  | info (info : TargetInfo) : r.info? info.family = none →
      (∀ other known, other ≠ info.family → r.info? other = some known →
        ∀ triple ∈ info.triples, triple ∉ known.triples) →
      Registers r (.info info) (r.put info.family { r.entry info.family with info? := some info })
  | machine (model : MachineModel) : (r.info? model.family).isSome = true → r.machine? model.family = none →
      Registers r (.machine model) (r.put model.family { r.entry model.family with machine? := some model })
  | decoder (family : Family) (factory : Factory) : (r.machine? family).isSome = true → r.factory? family = none →
      Registers r (.decoder family factory) (r.put family { r.entry family with factory? := some factory })

theorem registers_of_register {r next : Registry} {registration : Registration}
    (h : r.register registration = .ok next) : Registers r registration next := by
  cases registration with
  | info info =>
    simp only [register, registerInfo] at h
    split at h
    · cases h
    · next hclash =>
      split at h
      · next known hknown =>
        obtain rfl := Except.ok.inj h
        exact .again (Option.isSome_iff_exists.mpr ⟨known, hknown⟩)
      · next hnone =>
        obtain rfl := Except.ok.inj h
        exact .info info hnone ((r.findSome?_clash?_eq_none_iff info).mp hclash)
  | machine model =>
    simp only [register, registerMachine] at h
    split at h
    · cases h
    · next known _ hknown =>
      obtain rfl := Except.ok.inj h
      exact .again (Option.isSome_iff_exists.mpr ⟨known, hknown⟩)
    · next hinfo hmachine =>
      obtain rfl := Except.ok.inj h
      exact .machine model (Option.isSome_iff_exists.mpr ⟨_, hinfo⟩) hmachine
  | decoder family factory =>
    simp only [register, registerDecoder] at h
    split at h
    · cases h
    · next known _ hknown =>
      obtain rfl := Except.ok.inj h
      exact .again (Option.isSome_iff_exists.mpr ⟨known, hknown⟩)
    · next hmachine hfactory =>
      obtain rfl := Except.ok.inj h
      exact .decoder family factory (Option.isSome_iff_exists.mpr ⟨_, hmachine⟩) hfactory

/-! ### The invariant -/

/-- The stages of every family are registered in order, under the family that they name, and no two families
    have a triple in common. -/
structure WellFormed (r : Registry) : Prop where
  machine_of_factory : ∀ family, (r.factory? family).isSome = true → (r.machine? family).isSome = true
  info_of_machine : ∀ family, (r.machine? family).isSome = true → (r.info? family).isSome = true
  info_family : ∀ family info, r.info? family = some info → info.family = family
  machine_family : ∀ family model, r.machine? family = some model → model.family = family
  disjoint : ∀ family other info known, family ≠ other → r.info? family = some info → r.info? other = some known →
    ∀ triple ∈ info.triples, triple ∉ known.triples

theorem wellFormed_empty : empty.WellFormed where
  machine_of_factory := fun _ h => by cases h
  info_of_machine := fun _ h => by cases h
  info_family := fun _ _ h => by cases h
  machine_family := fun _ _ h => by cases h
  disjoint := fun _ _ _ _ _ h => by cases h

namespace WellFormed
variable {r r' : Registry}

/-- The order of the table does not count. -/
theorem of_perm (h : r.WellFormed) (order : r'.entries.entries.Perm r.entries.entries) : r'.WellFormed := by
  have hentry := entry_of_perm order
  constructor <;> simp only [factory?, machine?, info?, hentry]
  · exact h.machine_of_factory
  · exact h.info_of_machine
  · exact h.info_family
  · exact h.machine_family
  · exact h.disjoint

/-- Target info is added, of which no other family has a triple. -/
theorem addInfo (h : r.WellFormed) {info : TargetInfo}
    (hi : ∀ family, r'.info? family = if info.family = family then some info else r.info? family)
    (hm : ∀ family, r'.machine? family = r.machine? family) (hf : ∀ family, r'.factory? family = r.factory? family)
    (free : ∀ other known, other ≠ info.family → r.info? other = some known →
      ∀ triple ∈ info.triples, triple ∉ known.triples) : r'.WellFormed where
  machine_of_factory := by simpa only [hm, hf] using h.machine_of_factory
  info_of_machine := fun family hmachine => by
    rw [hm] at hmachine
    rw [hi]
    split
    · rfl
    · exact h.info_of_machine family hmachine
  info_family := fun family known hk => by
    rw [hi] at hk
    split at hk
    · next he => rw [← Option.some.inj hk, he]
    · exact h.info_family family known hk
  machine_family := by simpa only [hm] using h.machine_family
  disjoint := fun family other first second hne hfirst hsecond triple ht => by
    rw [hi] at hfirst hsecond
    split at hfirst
    · next he =>
      obtain rfl := Option.some.inj hfirst
      rw [if_neg fun ho => hne (he.symm.trans ho)] at hsecond
      exact free other second (fun ho => hne (he.symm.trans ho.symm)) hsecond triple ht
    · next he =>
      split at hsecond
      · obtain rfl := Option.some.inj hsecond
        exact fun ht' => free family first (fun ho => he ho.symm) hfirst triple ht' ht
      · exact h.disjoint family other first second hne hfirst hsecond triple ht

/-- A machine model is added for a family that has target info. -/
theorem addMachine (h : r.WellFormed) {model : MachineModel} (hi : ∀ family, r'.info? family = r.info? family)
    (hm : ∀ family, r'.machine? family = if model.family = family then some model else r.machine? family)
    (hf : ∀ family, r'.factory? family = r.factory? family) (hinfo : (r.info? model.family).isSome = true) :
    r'.WellFormed where
  machine_of_factory := fun family hfactory => by
    rw [hf] at hfactory
    rw [hm]
    split
    · rfl
    · exact h.machine_of_factory family hfactory
  info_of_machine := fun family hmachine => by
    rw [hm] at hmachine
    rw [hi]
    split at hmachine
    · next he => exact he ▸ hinfo
    · exact h.info_of_machine family hmachine
  info_family := by simpa only [hi] using h.info_family
  machine_family := fun family known hk => by
    rw [hm] at hk
    split at hk
    · next he => rw [← Option.some.inj hk, he]
    · exact h.machine_family family known hk
  disjoint := by simpa only [hi] using h.disjoint

/-- A decoder is added for a family that has a machine model. -/
theorem addDecoder (h : r.WellFormed) {family : Family} {factory : Factory}
    (hi : ∀ other, r'.info? other = r.info? other) (hm : ∀ other, r'.machine? other = r.machine? other)
    (hf : ∀ other, r'.factory? other = if family = other then some factory else r.factory? other)
    (hmachine : (r.machine? family).isSome = true) : r'.WellFormed where
  machine_of_factory := fun other hfactory => by
    rw [hf] at hfactory
    rw [hm]
    split at hfactory
    · next he => exact he ▸ hmachine
    · exact h.machine_of_factory other hfactory
  info_of_machine := by simpa only [hi, hm] using h.info_of_machine
  info_family := by simpa only [hi] using h.info_family
  machine_family := by simpa only [hm] using h.machine_family
  disjoint := by simpa only [hi] using h.disjoint

/-- A registration keeps the registry well formed, refused or not. -/
theorem attempt (h : r.WellFormed) (registration : Registration) : (r.attempt registration).2.WellFormed := by
  unfold Registry.attempt
  split
  · next hr =>
    cases registers_of_register hr with
    | again => exact h
    | info info _ free =>
      exact h.addInfo (fun other => info?_put ..) (fun _ => machine?_put_same _ rfl) (fun _ => factory?_put_same _ rfl)
        free
    | machine model hinfo _ =>
      exact h.addMachine (fun _ => info?_put_same _ rfl) (fun _ => machine?_put ..)
        (fun _ => factory?_put_same _ rfl) hinfo
    | decoder family factory hmachine _ =>
      exact h.addDecoder (fun _ => info?_put_same _ rfl) (fun _ => machine?_put_same _ rfl)
        (fun _ => factory?_put ..) hmachine
  · exact h

/-- A family whose decoder is registered has all of its stages registered. -/
theorem isRegistered_of_decoder (h : r.WellFormed) {family : Family} (hf : r.isRegistered family .decoder = true)
    (stage : Stage) : r.isRegistered family stage = true := by
  have hm := h.machine_of_factory family hf
  have hi := h.info_of_machine family hm
  cases stage <;> assumption

/-! ### Triples -/

/-- A triple has no two families. -/
theorem family_unique (h : r.WellFormed) {triple : String} {family other : Family} {info known : TargetInfo}
    (hi : r.info? family = some info) (ht : triple ∈ info.triples) (hk : r.info? other = some known)
    (ht' : triple ∈ known.triples) : family = other :=
  Classical.byContradiction fun hne => h.disjoint family other info known hne hi hk triple ht ht'

/-- The family of a triple is the one whose target info lists it. -/
theorem familyFor?_eq_some_iff (h : r.WellFormed) (triple : String) (family : Family) :
    r.familyFor? triple = some family ↔ ∃ info, r.info? family = some info ∧ triple ∈ info.triples := by
  rw [familyFor?, Option.map_eq_some_iff]
  constructor
  · rintro ⟨info, hfind, rfl⟩
    obtain ⟨owner, hi⟩ := (mem_infos r info).mp (List.mem_of_find?_eq_some hfind)
    have ht : triple ∈ info.triples := by simpa [TargetInfo.accepts] using List.find?_some hfind
    rw [h.info_family owner info hi]
    exact ⟨info, hi, ht⟩
  · rintro ⟨info, hi, ht⟩
    have haccepts : info.accepts triple = true := by simpa [TargetInfo.accepts] using ht
    cases hfind : r.infos.find? fun info => info.accepts triple with
    | none =>
      exact absurd haccepts (List.find?_eq_none.mp hfind info ((mem_infos r info).mpr ⟨family, hi⟩))
    | some found =>
      obtain ⟨owner, ho⟩ := (mem_infos r found).mp (List.mem_of_find?_eq_some hfind)
      have ht' : triple ∈ found.triples := by simpa [TargetInfo.accepts] using List.find?_some hfind
      refine ⟨found, rfl, ?_⟩
      rw [h.info_family owner found ho]
      exact h.family_unique ho ht' hi ht

end WellFormed

end GpuListing.Registry
