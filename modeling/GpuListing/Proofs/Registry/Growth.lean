import GpuListing.Proofs.Registry.Invariant

/-! # Registries grow

Nothing that is registered is ever taken back or replaced. A registration that is not refused leaves its stage
registered for the family that it names, and touches the entry of no other family. -/

namespace GpuListing.Registry

/-- Whatever is registered in the first registry is registered in the second one as well, and is the same. -/
structure Grows (r r' : Registry) : Prop where
  info : ∀ family info, r.info? family = some info → r'.info? family = some info
  machine : ∀ family model, r.machine? family = some model → r'.machine? family = some model
  factory : ∀ family factory, r.factory? family = some factory → r'.factory? family = some factory

namespace Grows
variable {r r' r'' : Registry}

theorem refl (r : Registry) : r.Grows r := ⟨fun _ _ h => h, fun _ _ h => h, fun _ _ h => h⟩

theorem trans (h : r.Grows r') (h' : r'.Grows r'') : r.Grows r'' where
  info family info hi := h'.info family info (h.info family info hi)
  machine family model hm := h'.machine family model (h.machine family model hm)
  factory family factory hf := h'.factory family factory (h.factory family factory hf)

theorem of_perm (order : r'.entries.entries.Perm r.entries.entries) : r.Grows r' := by
  have hentry := entry_of_perm order
  constructor <;> intro family <;> simp only [info?, machine?, factory?, hentry] <;> exact fun _ h => h

theorem isRegistered (h : r.Grows r') {family : Family} {stage : Stage}
    (hs : r.isRegistered family stage = true) : r'.isRegistered family stage = true := by
  cases stage with
  | metadata =>
    obtain ⟨info, hi⟩ := Option.isSome_iff_exists.mp hs
    exact Option.isSome_iff_exists.mpr ⟨info, h.info family info hi⟩
  | machineModel =>
    obtain ⟨model, hm⟩ := Option.isSome_iff_exists.mp hs
    exact Option.isSome_iff_exists.mpr ⟨model, h.machine family model hm⟩
  | decoder =>
    obtain ⟨factory, hf⟩ := Option.isSome_iff_exists.mp hs
    exact Option.isSome_iff_exists.mpr ⟨factory, h.factory family factory hf⟩

/-- The family of a triple stays. -/
theorem familyFor? (grows : r.Grows r') (h : r.WellFormed) (h' : r'.WellFormed) {triple : String} {family : Family}
    (hfamily : r.familyFor? triple = some family) : r'.familyFor? triple = some family := by
  obtain ⟨info, hinfo, ht⟩ := (h.familyFor?_eq_some_iff triple family).mp hfamily
  exact (h'.familyFor?_eq_some_iff triple family).mpr ⟨info, grows.info family info hinfo, ht⟩

end Grows

/-- An entry that has all that the one before it had may take its place. -/
theorem grows_put {r : Registry} {family : Family} {entry : Entry}
    (hi : ∀ info, r.info? family = some info → entry.info? = some info)
    (hm : ∀ model, r.machine? family = some model → entry.machine? = some model)
    (hf : ∀ factory, r.factory? family = some factory → entry.factory? = some factory) :
    r.Grows (r.put family entry) where
  info other info h := by
    rw [info?_put]
    split
    · next he => exact hi info (he ▸ h)
    · exact h
  machine other model h := by
    rw [machine?_put]
    split
    · next he => exact hm model (he ▸ h)
    · exact h
  factory other factory h := by
    rw [factory?_put]
    split
    · next he => exact hf factory (he ▸ h)
    · exact h

theorem get?_put_of_ne (r : Registry) {family other : Family} (entry : Entry) (hne : other ≠ family) :
    (r.put family entry).entries.get? other = r.entries.get? other := by
  rw [put, Table.get?_set, if_neg (Ne.symm hne)]

/-! ### What a registration does -/

namespace Registers
variable {r next : Registry} {registration : Registration}

theorem grows (h : Registers r registration next) : r.Grows next := by
  cases h with
  | again _ => exact .refl r
  | info info hnone _ =>
    exact grows_put (fun known hk => absurd (hnone.symm.trans hk) (by simp)) (fun _ hm => hm) fun _ hf => hf
  | machine model _ hnone =>
    exact grows_put (fun _ hi => hi) (fun known hk => absurd (hnone.symm.trans hk) (by simp)) fun _ hf => hf
  | decoder owner factory _ hnone =>
    exact grows_put (fun _ hi => hi) (fun _ hm => hm) fun known hk => absurd (hnone.symm.trans hk) (by simp)

theorem isRegistered (h : Registers r registration next) :
    next.isRegistered registration.family registration.stage = true := by
  cases h with
  | again hs => exact hs
  | info info _ _ => simp [Registration.family, Registration.stage, Registry.isRegistered, info?_put]
  | machine model _ _ => simp [Registration.family, Registration.stage, Registry.isRegistered, machine?_put]
  | decoder owner factory _ _ =>
    simp [Registration.family, Registration.stage, Registry.isRegistered, factory?_put]

theorem get?_of_ne (h : Registers r registration next) {other : Family}
    (hne : other ≠ registration.family) : next.entries.get? other = r.entries.get? other := by
  cases h with
  | again _ => rfl
  | info info _ _ => exact get?_put_of_ne r _ hne
  | machine model _ _ => exact get?_put_of_ne r _ hne
  | decoder owner factory _ _ => exact get?_put_of_ne r _ hne

end Registers

theorem grows_attempt (r : Registry) (registration : Registration) : r.Grows (r.attempt registration).2 := by
  unfold Registry.attempt
  split
  · next hr => exact (registers_of_register hr).grows
  · exact .refl r

/-- A registration touches the entry of no family but the one that it names. -/
theorem get?_attempt_of_ne (r : Registry) {registration : Registration} {other : Family}
    (hne : other ≠ registration.family) :
    (r.attempt registration).2.entries.get? other = r.entries.get? other := by
  unfold Registry.attempt
  split
  · next hr => exact (registers_of_register hr).get?_of_ne hne
  · rfl

/-- What a registration that is not refused registers is there afterwards. -/
theorem isRegistered_attempt {r : Registry} {registration : Registration} (hok : (r.attempt registration).1 = .ok) :
    (r.attempt registration).2.isRegistered registration.family registration.stage = true := by
  unfold Registry.attempt at hok ⊢
  split at hok
  · next hr => exact (registers_of_register hr).isRegistered
  · cases hok

/-! ### When a registration is refused -/

/-- Another family holds target info with a triple of the given one. -/
def Contests (r : Registry) (other : Family) (info : TargetInfo) : Prop :=
  other ≠ info.family ∧ ∃ known, r.info? other = some known ∧ ∃ triple ∈ info.triples, triple ∈ known.triples

theorem Grows.contests {r r' : Registry} (h : r.Grows r') {other : Family} {info : TargetInfo}
    (hc : r.Contests other info) : r'.Contests other info := by
  obtain ⟨hne, known, hknown, shared⟩ := hc
  exact ⟨hne, known, h.info other known hknown, shared⟩

/-- Target info is refused for the first of its triples that some other family has, or no family contests it. -/
theorem attempt_info_find (r : Registry) (info : TargetInfo) :
    (∃ owner known triple, owner ≠ info.family ∧ r.info? owner = some known ∧
      info.triples.find? known.accepts = some triple ∧
      r.attempt (.info info) = (.refused (.duplicateTriple triple known.family), r)) ∨
    ((r.attempt (.info info)).1 = .ok ∧ ∀ other, ¬ r.Contests other info) := by
  cases hclash : (r.rivals info.family).findSome? (clash? info) with
  | some found =>
    obtain ⟨known, hmem, hfound⟩ := List.exists_of_findSome?_eq_some hclash
    obtain ⟨owner, hne, hknown⟩ := (r.mem_rivals info.family known).mp hmem
    obtain ⟨triple, hfind, rfl⟩ := Option.map_eq_some_iff.mp hfound
    refine .inl ⟨owner, known, triple, hne, hknown, hfind, ?_⟩
    simp only [Registry.attempt, register, registerInfo, hclash]
  | none =>
    refine .inr ⟨?_, ?_⟩
    · simp only [Registry.attempt, register, registerInfo, hclash]
      cases (r.entry info.family).info? <;> rfl
    · rintro other ⟨hne, known, hknown, triple, ht, ht'⟩
      exact (r.findSome?_clash?_eq_none_iff info).mp hclash other known hne hknown triple ht ht'

/-- What a search for a triple that the other info accepts finds is a triple of both. -/
theorem mem_of_find?_accepts {info known : TargetInfo} {triple : String}
    (h : info.triples.find? known.accepts = some triple) : triple ∈ info.triples ∧ triple ∈ known.triples :=
  ⟨List.mem_of_find?_eq_some h, by simpa [TargetInfo.accepts] using List.find?_some h⟩

/-- Target info is refused if and only if another family has one of its triples. -/
theorem attempt_info_cases (r : Registry) (info : TargetInfo) :
    (∃ triple owner known, r.attempt (.info info) = (.refused (.duplicateTriple triple known.family), r) ∧
      owner ≠ info.family ∧ r.info? owner = some known ∧ triple ∈ info.triples ∧ triple ∈ known.triples) ∨
    ((r.attempt (.info info)).1 = .ok ∧ ∀ other known, other ≠ info.family → r.info? other = some known →
      ∀ triple ∈ info.triples, triple ∉ known.triples) := by
  rcases r.attempt_info_find info with ⟨owner, known, triple, hne, hknown, hfind, hrefused⟩ | ⟨hok, hfree⟩
  · obtain ⟨ht, ht'⟩ := mem_of_find?_accepts hfind
    exact .inl ⟨triple, owner, known, hrefused, hne, hknown, ht, ht'⟩
  · exact .inr ⟨hok, fun other known hne hknown triple ht ht' => hfree other ⟨hne, known, hknown, triple, ht, ht'⟩⟩

theorem attempt_machine_ok {r : Registry} {model : MachineModel} (h : (r.info? model.family).isSome = true) :
    (r.attempt (.machine model)).1 = .ok := by
  obtain ⟨info, hi⟩ := Option.isSome_iff_exists.mp h
  rw [info?] at hi
  simp only [Registry.attempt, register, registerMachine, hi]
  cases (r.entry model.family).machine? <;> rfl

theorem attempt_decoder_ok {r : Registry} {family : Family} (factory : Factory)
    (h : (r.machine? family).isSome = true) : (r.attempt (.decoder family factory)).1 = .ok := by
  obtain ⟨model, hm⟩ := Option.isSome_iff_exists.mp h
  rw [machine?] at hm
  simp only [Registry.attempt, register, registerDecoder, hm]
  cases (r.entry family).factory? <;> rfl

end GpuListing.Registry
