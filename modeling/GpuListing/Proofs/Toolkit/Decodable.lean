import GpuListing.Listing.Session
import GpuListing.Proofs.Toolkit.Work

/-! # What is ready decodes

The readiness of a family is kept apart from what is registered for it. Still, a family that is ready has all
its stages registered, also with bundles whose machine model names another family: the decoder stage is called
last, it is filed under the family asked for, and the registry takes no decoder without the model and the info
of that family. Every triple of the family then opens a session for it. -/

namespace GpuListing

/-! ### Sessions -/

namespace Session
variable {r : Registry} {family : Family} {info : TargetInfo} {model : MachineModel} {factory : Factory}

/-- A triple of a family of which everything is registered leads to the family's machine model and factory. -/
theorem start_eq_onModel (h : r.WellFormed) (hi : r.info? family = some info) (hm : r.machine? family = some model)
    (hf : r.factory? family = some factory) {triple : String} (ht : triple ∈ info.triples) (cpu : String) :
    start r triple cpu = onModel family model factory cpu := by
  have hfamily : r.familyFor? triple = some family := (h.familyFor?_eq_some_iff triple family).mpr ⟨info, hi, ht⟩
  simp only [start, startAcross, hfamily, hm, hf]

theorem onModel_eq (family : Family) (model : MachineModel) (factory : Factory) (cpu : String) :
    onModel family model factory cpu =
      let asked := if cpu = "" then model.defaultProcessor else cpu
      if asked ∈ model.processors then .ok ⟨family, asked, model, factory model asked⟩
      else .error (.unknownProcessor family asked) := by
  simp only [onModel, MachineModel.hasProcessor, List.contains_iff_mem]

end Session

namespace Toolkit

/-- A family that is ready has its decoder registered, for every toolkit. -/
theorem Reaches.decoder_of_isReady {t : Toolkit} {b : Bench Registry} (reached : t.Reaches b) {family : Family}
    (ready : b.initializer.isReady family = true) : b.world.isRegistered family .decoder = true := by
  have sound := (reached.wellFormed.2 (.family family)).sound
  have active : (b.initializer.snapshot family).isActive .decoder = true :=
    (Flags.isReady_iff _).mp (sound.mark ▸ ready) .decoder
  exact reached.isRegistered (P := (· = .decoder)) (fun _ _ _ hs _ => by subst hs; rfl) rfl active

/-- Work with a toolkit of any bundles: of a family that is ready, everything is registered, then and later, and
    each of its triples opens a session on every processor of its machine model and is refused for no other
    reason than an unknown processor. If the bundles agree with themselves, a single active stage is already
    registered. -/
theorem ready_decodes (bundles : List Bundle) {b : Bench Registry} (reached : (ofBundles bundles).Reaches b) :
    (∀ family, b.initializer.isReady family = true → ∀ later, (ofBundles bundles).Leads b later →
      (∀ stage, later.world.isRegistered family stage = true) ∧
      ∃ info model factory, later.world.info? family = some info ∧ later.world.machine? family = some model ∧
        later.world.factory? family = some factory ∧
        ∀ triple ∈ info.triples, ∀ cpu, Session.start later.world triple cpu =
          let asked := if cpu = "" then model.defaultProcessor else cpu
          if asked ∈ model.processors then .ok ⟨family, asked, model, factory model asked⟩
          else .error (.unknownProcessor family asked)) ∧
      ((ofBundles bundles).Agrees → ∀ family stage, (b.initializer.snapshot family).isActive stage = true →
        b.world.isRegistered family stage = true) := by
  constructor
  · intro family ready later leads
    have wellFormed : later.world.WellFormed := (reached.trans leads).wellFormed.1
    have hf : later.world.isRegistered family .decoder = true :=
      (reached.grows leads).isRegistered (reached.decoder_of_isReady ready)
    have hm := wellFormed.machine_of_factory family hf
    have hi := wellFormed.info_of_machine family hm
    refine ⟨fun stage => by cases stage <;> assumption, ?_⟩
    obtain ⟨info, hinfo⟩ := Option.isSome_iff_exists.mp hi
    obtain ⟨model, hmodel⟩ := Option.isSome_iff_exists.mp hm
    obtain ⟨factory, hfactory⟩ := Option.isSome_iff_exists.mp hf
    refine ⟨info, model, factory, hinfo, hmodel, hfactory, fun triple ht cpu => ?_⟩
    rw [Session.start_eq_onModel wellFormed hinfo hmodel hfactory ht, Session.onModel_eq]
  · intro agrees family stage active
    refine reached.isRegistered (P := fun _ => True) (fun stage family bundle _ hb => ?_) trivial active
    have hinfo := filed_ofBundles bundles family bundle hb
    cases stage with
    | metadata => exact hinfo
    | machineModel => exact (agrees family bundle hb).trans hinfo
    | decoder => rfl

/-- The bundle for A has a machine model of B. A comes up once B has target info and A another machine model, and
    is listed by that one. -/
theorem mismatched_bundle_decodes :
    let model : MachineModel := ⟨⟨"B"⟩, ["p"], "p", 4, 4, 4⟩
    let t := ofBundles [⟨⟨⟨"A"⟩, "a", "", ["x"]⟩, model, Decoder.rawWordFactory⟩]
    let b₁ := ((Bench.start .empty).perform t.provider (.ensureReady ⟨"A"⟩)).2
    let b₂ : Bench Registry := { b₁ with world := (b₁.world.attempt (.info ⟨⟨"B"⟩, "b", "", ["y"]⟩)).2 }
    let b₃ : Bench Registry :=
      { b₂ with world := (b₂.world.attempt (.machine ⟨⟨"A"⟩, ["q"], "q", 4, 4, 4⟩)).2 }
    let b := (b₃.perform t.provider (.ensureReady ⟨"A"⟩)).2
    t.Reaches b ∧ b.initializer.isReady ⟨"A"⟩ = true ∧
      Session.start b.world "x" "p" = .error (.unknownProcessor ⟨"A"⟩ "p") := by
  intro model t b₁ b₂ b₃ b
  have reached : t.Reaches b :=
    (((Relation.ReflTransGen.refl.tail (.request (.inTurn _ _))).tail (.register b₁ _)).tail (.register b₂ _)).tail
      (.request (.inTurn _ _))
  have ready : b.initializer.isReady ⟨"A"⟩ = true := by decide
  obtain ⟨-, info, model, factory, hi, hm, -, hstart⟩ := (ready_decodes _ reached).1 ⟨"A"⟩ ready b .refl
  have hinfo : b.world.info? ⟨"A"⟩ = some ⟨⟨"A"⟩, "a", "", ["x"]⟩ := by decide
  have hmodel : b.world.machine? ⟨"A"⟩ = some ⟨⟨"A"⟩, ["q"], "q", 4, 4, 4⟩ := by decide
  cases hi.symm.trans hinfo
  cases hm.symm.trans hmodel
  exact ⟨reached, ready, hstart "x" List.mem_cons_self "p"⟩

end Toolkit

end GpuListing
