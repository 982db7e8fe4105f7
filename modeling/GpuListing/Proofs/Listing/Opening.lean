import GpuListing.Listing.Session
import GpuListing.Proofs.Registry.Course

/-! # Starts of sessions

A start looks up three things one after another, and registrations may come in between. What it finds stays in the
registry and is the only thing of its kind, so later starts get at least as far, for the same family; and a start
whose look-ups saw three registries comes to what a start on the last of them comes to. -/

namespace GpuListing.Session

/-! ### Look-ups -/

/-- What the look-ups of a start find in three registries, and what the start comes to. -/
inductive LooksUp (triples machines decoders : Registry) (triple cpu : String) : Except SessionError Session → Prop where
  | noFamily : triples.familyFor? triple = none →
      LooksUp triples machines decoders triple cpu (.error (.unknownTriple triple))
  | noModel (family : Family) : triples.familyFor? triple = some family → machines.machine? family = none →
      LooksUp triples machines decoders triple cpu (.error (.notReady family .machineModel))
  | noDecoder (family : Family) (model : MachineModel) : triples.familyFor? triple = some family →
      machines.machine? family = some model → decoders.factory? family = none →
      LooksUp triples machines decoders triple cpu (.error (.notReady family .decoder))
  | all (family : Family) (model : MachineModel) (factory : Factory) : triples.familyFor? triple = some family →
      machines.machine? family = some model → decoders.factory? family = some factory →
      LooksUp triples machines decoders triple cpu (onModel family model factory cpu)

section LooksUp
variable {triples machines decoders : Registry} {triple cpu : String} {outcome : Except SessionError Session}

theorem looksUp (triples machines decoders : Registry) (triple cpu : String) :
    LooksUp triples machines decoders triple cpu (startAcross triples machines decoders triple cpu) := by
  unfold startAcross
  split
  · next hfamily => exact .noFamily hfamily
  · next family hfamily =>
    split
    · next hmodel => exact .noModel family hfamily hmodel
    · next model hmodel =>
      split
      · next hfactory => exact .noDecoder family model hfamily hmodel hfactory
      · next factory hfactory => exact .all family model factory hfamily hmodel hfactory

theorem LooksUp.eq (h : LooksUp triples machines decoders triple cpu outcome) :
    startAcross triples machines decoders triple cpu = outcome := by
  cases h with
  | noFamily hfamily => simp only [startAcross, hfamily]
  | noModel family hfamily hmodel => simp only [startAcross, hfamily, hmodel]
  | noDecoder family model hfamily hmodel hfactory => simp only [startAcross, hfamily, hmodel, hfactory]
  | all family model factory hfamily hmodel hfactory => simp only [startAcross, hfamily, hmodel, hfactory]

end LooksUp

/-! ### How far a start gets -/

/-- How many of its look-ups have found something, by what a start comes to. -/
def progress : Except SessionError Session → Nat
  | .error (.unknownTriple _) => 0
  | .error (.notReady _ .metadata) => 0
  | .error (.notReady _ .machineModel) => 1
  | .error (.notReady _ .decoder) => 2
  | .error (.unknownProcessor ..) => 3
  | .ok _ => 3

/-- The family that is told along with what a start comes to. -/
def family? : Except SessionError Session → Option Family
  | .error (.unknownTriple _) => none
  | .error (.notReady family _) => some family
  | .error (.unknownProcessor family _) => some family
  | .ok session => some session.family

section OnModel
variable (family : Family) (model : MachineModel) (factory : Factory) (cpu : String)

/-- A start that has found everything comes to a session for some processor, or does not know it. -/
theorem onModel_cases : ∃ asked, onModel family model factory cpu = .ok ⟨family, asked, model, factory model asked⟩ ∨
    onModel family model factory cpu = .error (.unknownProcessor family asked) := by
  refine ⟨if cpu = "" then model.defaultProcessor else cpu, ?_⟩
  rw [onModel]
  by_cases hcpu : model.hasProcessor (if cpu = "" then model.defaultProcessor else cpu) = true
  · exact .inl (if_pos hcpu)
  · exact .inr (if_neg hcpu)

theorem progress_onModel : progress (onModel family model factory cpu) = 3 := by
  obtain ⟨asked, hok | herror⟩ := onModel_cases family model factory cpu
  · rw [hok, progress]
  · rw [herror, progress]

theorem family?_onModel : family? (onModel family model factory cpu) = some family := by
  obtain ⟨asked, hok | herror⟩ := onModel_cases family model factory cpu
  · rw [hok, family?]
  · rw [herror, family?]

variable {family model factory cpu} in
/-- A session is that of the model and the factory. -/
theorem of_onModel {session : Session} (h : onModel family model factory cpu = .ok session) :
    session.family = family ∧ session.model = model ∧ session.decoder = factory session.model session.cpu := by
  obtain ⟨asked, hok | herror⟩ := onModel_cases family model factory cpu
  · obtain rfl := Except.ok.inj (hok.symm.trans h)
    exact ⟨rfl, rfl, rfl⟩
  · cases herror.symm.trans h

end OnModel

/-! ### Starts in a run -/

section Run
variable {r later : Registry} {triple : String} {family : Family}

/-- A start tells the family of the triple, and gets past the stages that are registered for it. -/
theorem start_of_familyFor? (h : r.WellFormed) (hfamily : r.familyFor? triple = some family) (cpu : String) :
    family? (start r triple cpu) = some family ∧
      progress (start r triple cpu) = Stage.all.countP (r.isRegistered family) := by
  obtain ⟨info, hinfo, -⟩ := (h.familyFor?_eq_some_iff triple family).mp hfamily
  have hlook : LooksUp r r r triple cpu (start r triple cpu) := looksUp r r r triple cpu
  generalize start r triple cpu = outcome at hlook ⊢
  cases hlook with
  | noFamily hnone => cases hnone.symm.trans hfamily
  | noModel known hknown hmodel =>
    obtain rfl := Option.some.inj (hknown.symm.trans hfamily)
    have hfactory : r.factory? known = none := by
      have hno := mt (h.machine_of_factory known) (by rw [hmodel]; decide)
      rwa [Option.not_isSome_iff_eq_none] at hno
    refine ⟨rfl, ?_⟩
    simp [Stage.all, Registry.isRegistered, hinfo, hmodel, hfactory, progress]
  | noDecoder known model hknown hmodel hfactory =>
    obtain rfl := Option.some.inj (hknown.symm.trans hfamily)
    refine ⟨rfl, ?_⟩
    simp [Stage.all, Registry.isRegistered, hinfo, hmodel, hfactory, progress]
  | all known model factory hknown hmodel hfactory =>
    obtain rfl := Option.some.inj (hknown.symm.trans hfamily)
    refine ⟨family?_onModel known model factory cpu, ?_⟩
    rw [progress_onModel]
    simp [Stage.all, Registry.isRegistered, hinfo, hmodel, hfactory]

theorem start_of_familyFor?_eq_none (hnone : r.familyFor? triple = none) (cpu : String) :
    start r triple cpu = .error (.unknownTriple triple) :=
  (LooksUp.noFamily hnone).eq

theorem progress_le (h : r.WellFormed) (h' : later.WellFormed) (grows : r.Grows later) (triple cpu : String) :
    progress (start r triple cpu) ≤ progress (start later triple cpu) := by
  cases hfamily : r.familyFor? triple with
  | none =>
    rw [start_of_familyFor?_eq_none hfamily]
    exact Nat.zero_le _
  | some family =>
    rw [(start_of_familyFor? h hfamily cpu).2, (start_of_familyFor? h' (grows.familyFor? h h' hfamily) cpu).2]
    exact List.countP_mono_left fun _ _ => grows.isRegistered

/-- A start that has found everything is that on a machine model and with a factory that stay. -/
theorem settled_of_progress {cpu : String} (h : progress (start r triple cpu) = 3) :
    ∃ family model factory, r.familyFor? triple = some family ∧ r.machine? family = some model ∧
      r.factory? family = some factory ∧ start r triple cpu = onModel family model factory cpu := by
  have hlook : LooksUp r r r triple cpu (start r triple cpu) := looksUp r r r triple cpu
  generalize start r triple cpu = outcome at h hlook ⊢
  cases hlook with
  | noFamily => cases h
  | noModel => cases h
  | noDecoder => cases h
  | all family model factory hfamily hmodel hfactory => exact ⟨family, model, factory, hfamily, hmodel, hfactory, rfl⟩

/-- In every run of registrations, a start gets past the stages that are registered for the family of its triple, and
    a later one gets as far or farther, for the same family. Once a start has found everything, each later one comes to
    the same: a session with the same machine model and decoder, or the same unknown processor. -/
theorem start_forward (reachable : r.Reachable) (leads : r.Leads later) (triple cpu : String) :
    ((∀ family info, r.info? family = some info → triple ∉ info.triples) →
        start r triple cpu = .error (.unknownTriple triple)) ∧
      (∀ family info, r.info? family = some info → triple ∈ info.triples →
        family? (start r triple cpu) = some family ∧
          progress (start r triple cpu) = Stage.all.countP (r.isRegistered family)) ∧
      progress (start r triple cpu) ≤ progress (start later triple cpu) ∧
      (∀ family, family? (start r triple cpu) = some family → family? (start later triple cpu) = some family) ∧
      (progress (start r triple cpu) = 3 → start later triple cpu = start r triple cpu) ∧
      ∀ session, start r triple cpu = .ok session →
        later.machine? session.family = some session.model ∧
        ∃ factory, r.factory? session.family = some factory ∧ later.factory? session.family = some factory ∧
          session.decoder = factory session.model session.cpu := by
  have h := reachable.wellFormed
  have h' := (leads.reachable reachable).wellFormed
  have grows := leads.grows
  refine ⟨fun hfree => ?_, fun family info hinfo ht => ?_, progress_le h h' grows triple cpu, fun family htold => ?_,
    fun hfinal => ?_, fun session hsession => ?_⟩
  · refine start_of_familyFor?_eq_none (Option.eq_none_iff_forall_ne_some.mpr fun family hfamily => ?_) cpu
    obtain ⟨info, hinfo, ht⟩ := (h.familyFor?_eq_some_iff triple family).mp hfamily
    exact hfree family info hinfo ht
  · exact start_of_familyFor? h ((h.familyFor?_eq_some_iff triple family).mpr ⟨info, hinfo, ht⟩) cpu
  · cases hfamily : r.familyFor? triple with
    | none =>
      rw [start_of_familyFor?_eq_none hfamily] at htold
      cases htold
    | some known =>
      rw [(start_of_familyFor? h hfamily cpu).1] at htold
      obtain rfl := Option.some.inj htold
      exact (start_of_familyFor? h' (grows.familyFor? h h' hfamily) cpu).1
  · obtain ⟨family, model, factory, hfamily, hmodel, hfactory, hstart⟩ := settled_of_progress hfinal
    rw [hstart]
    exact (LooksUp.all family model factory (grows.familyFor? h h' hfamily) (grows.machine family model hmodel)
      (grows.factory family factory hfactory)).eq
  · have hfinal : progress (start r triple cpu) = 3 := by rw [hsession]; rfl
    obtain ⟨family, model, factory, -, hmodel, hfactory, hstart⟩ := settled_of_progress hfinal
    obtain ⟨rfl, rfl, hdecoder⟩ := of_onModel (hstart.symm.trans hsession)
    exact ⟨grows.machine _ _ hmodel, factory, hfactory, grows.factory _ factory hfactory, hdecoder⟩

end Run

/-- A session has been started for A. Another machine model of A is then dropped, and B is refused the triple of A:
    a start still comes to the same. -/
theorem renewed_start_same :
    let model : MachineModel := ⟨⟨"A"⟩, ["p", "q"], "p", 4, 4, 4⟩
    let r := (((Registry.empty.attempt (.info ⟨⟨"A"⟩, "a", "", ["x"]⟩)).2.attempt (.machine model)).2.attempt
      (.decoder ⟨"A"⟩ Decoder.rawWordFactory)).2
    let later := ((r.attempt (.machine ⟨⟨"A"⟩, ["q"], "q", 8, 8, 8⟩)).2.attempt
      (.info ⟨⟨"B"⟩, "b", "", ["y", "x"]⟩)).2
    r.Reachable ∧ r.Leads later ∧ start r "x" "" = .ok ⟨⟨"A"⟩, "p", model, Decoder.rawWords⟩ ∧
      start later "x" "" = start r "x" "" := by
  intro model r later
  have reachable : r.Reachable := .register _ (.register _ (.register _ .empty))
  have leads : r.Leads later := (Relation.ReflTransGen.single (.register _)).tail (.register _)
  have hstart : start r "x" "" = .ok ⟨⟨"A"⟩, "p", model, Decoder.rawWords⟩ := rfl
  obtain ⟨-, -, -, -, hsame, -⟩ := start_forward reachable leads "x" ""
  exact ⟨reachable, leads, hstart, hsame (by rw [hstart]; rfl)⟩

/-! ### Starts that others come between -/

/-- The registry that the last look-up of a start saw, by what the start comes to. -/
def lastSeen (triples machines decoders : Registry) : Except SessionError Session → Registry
  | .error (.unknownTriple _) => triples
  | .error (.notReady _ .machineModel) => machines
  | _ => decoders

theorem lastSeen_onModel (triples machines decoders : Registry) (family : Family) (model : MachineModel)
    (factory : Factory) (cpu : String) :
    lastSeen triples machines decoders (onModel family model factory cpu) = decoders := by
  obtain ⟨asked, hok | herror⟩ := onModel_cases family model factory cpu
  · rw [hok]
    rfl
  · rw [herror]
    rfl

section Between
variable {triples machines decoders : Registry} {triple cpu : String} {outcome : Except SessionError Session}

theorem LooksUp.unknownTriple_iff (h : LooksUp triples machines decoders triple cpu outcome) :
    outcome = .error (.unknownTriple triple) ↔ triples.familyFor? triple = none := by
  cases h with
  | noFamily hnone => exact iff_of_true rfl hnone
  | noModel family hfamily hmodel => exact iff_of_false nofun (by rw [hfamily]; exact nofun)
  | noDecoder family model hfamily hmodel hfactory => exact iff_of_false nofun (by rw [hfamily]; exact nofun)
  | all family model factory hfamily hmodel hfactory =>
    have hfinal := progress_onModel family model factory cpu
    exact iff_of_false (fun he => by rw [he] at hfinal; cases hfinal) (by rw [hfamily]; exact nofun)

theorem LooksUp.notReady_iff (h : LooksUp triples machines decoders triple cpu outcome) {family : Family}
    (hfamily : triples.familyFor? triple = some family) :
    outcome = .error (.notReady family .machineModel) ↔ machines.machine? family = none := by
  cases h with
  | noFamily hnone => cases hnone.symm.trans hfamily
  | noModel known hknown hmodel =>
    obtain rfl := Option.some.inj (hknown.symm.trans hfamily)
    exact iff_of_true rfl hmodel
  | noDecoder known model hknown hmodel hfactory =>
    obtain rfl := Option.some.inj (hknown.symm.trans hfamily)
    exact iff_of_false nofun (by rw [hmodel]; exact nofun)
  | all known model factory hknown hmodel hfactory =>
    obtain rfl := Option.some.inj (hknown.symm.trans hfamily)
    have hfinal := progress_onModel known model factory cpu
    exact iff_of_false (fun he => by rw [he] at hfinal; cases hfinal) (by rw [hmodel]; exact nofun)

/-- A start whose look-ups see three registries of a run one after another, whatever is registered in between, comes
    to what a start on the last of them that it saw comes to: the first one if it finds no family there, the second
    one if it finds no machine model there, and else the third one. -/
theorem start_not_torn (reachable : triples.Reachable) (before : triples.Leads machines)
    (after : machines.Leads decoders) (triple cpu : String) :
    startAcross triples machines decoders triple cpu =
        start (lastSeen triples machines decoders (startAcross triples machines decoders triple cpu)) triple cpu ∧
      (startAcross triples machines decoders triple cpu = .error (.unknownTriple triple) ↔
        triples.familyFor? triple = none) ∧
      ∀ family, triples.familyFor? triple = some family →
        (startAcross triples machines decoders triple cpu = .error (.notReady family .machineModel) ↔
          machines.machine? family = none) := by
  have hlook := looksUp triples machines decoders triple cpu
  refine ⟨?_, hlook.unknownTriple_iff, fun family => hlook.notReady_iff⟩
  generalize startAcross triples machines decoders triple cpu = outcome at hlook ⊢
  have hreachable := before.reachable reachable
  have h := reachable.wellFormed
  have hmachines := hreachable.wellFormed
  have hdecoders := (after.reachable hreachable).wellFormed
  -- What an earlier look-up found is found in each later registry as well.
  cases hlook with
  | noFamily hnone => exact (LooksUp.noFamily hnone).eq.symm
  | noModel family hfamily hmodel =>
    have hfamily' := before.grows.familyFor? h hmachines hfamily
    exact (LooksUp.noModel family hfamily' hmodel).eq.symm
  | noDecoder family model hfamily hmodel hfactory =>
    have hfamily' := (before.grows.trans after.grows).familyFor? h hdecoders hfamily
    exact (LooksUp.noDecoder family model hfamily' (after.grows.machine family model hmodel) hfactory).eq.symm
  | all family model factory hfamily hmodel hfactory =>
    have hfamily' := (before.grows.trans after.grows).familyFor? h hdecoders hfamily
    rw [lastSeen_onModel]
    exact (LooksUp.all family model factory hfamily' (after.grows.machine family model hmodel) hfactory).eq.symm

end Between

/-- A has only its info when the family is looked up; then B is refused the triple of A, and the machine model and the
    decoder of A come one look-up ahead of the start. -/
theorem overtaken_start_whole :
    let model : MachineModel := ⟨⟨"A"⟩, ["p"], "p", 4, 4, 4⟩
    let triples := (Registry.empty.attempt (.info ⟨⟨"A"⟩, "a", "", ["x"]⟩)).2
    let machines := ((triples.attempt (.info ⟨⟨"B"⟩, "b", "", ["x"]⟩)).2.attempt (.machine model)).2
    let decoders := (machines.attempt (.decoder ⟨"A"⟩ Decoder.rawWordFactory)).2
    triples.Reachable ∧ triples.Leads machines ∧ machines.Leads decoders ∧
      start triples "x" "p" = .error (.notReady ⟨"A"⟩ .machineModel) ∧
      start machines "x" "p" = .error (.notReady ⟨"A"⟩ .decoder) ∧
      startAcross triples machines decoders "x" "p" = start decoders "x" "p" := by
  intro model triples machines decoders
  have reachable : triples.Reachable := .register _ .empty
  have before : triples.Leads machines := (Relation.ReflTransGen.single (.register _)).tail (.register _)
  have after : machines.Leads decoders := .single (.register _)
  exact ⟨reachable, before, after, rfl, rfl, (start_not_torn reachable before after "x" "p").1⟩

end GpuListing.Session
