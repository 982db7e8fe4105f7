import GpuListing.Proofs.Toolkit.Work

/-! # Families come up at once or not at all

The stages of a family are separate calls, and what an earlier one registered is not taken back when a later one
fails. With bundles that agree with themselves no later one does: target info that is accepted lets the machine
model in, and the machine model lets the decoder in. So whatever is done, the stages of a family are all active
or none is, and an attempt that fails leaves no trace. -/

namespace GpuListing

/-- The readiness of a family that is up. -/
def Readiness.complete : Readiness := ⟨⟨true, true, true⟩, true⟩

theorem Readiness.ensureReady_of_walk {World : Type} {provider : Provider World} {family : Family} {r : Readiness}
    {world next : World} {verdict : Verdict} {flags : Flags} {calls : List Call} (hr : r.ready = false)
    (hw : activatePending provider family Stage.all r.flags world = ⟨verdict, flags, next, calls⟩) :
    r.ensureReady provider family world = ⟨verdict, ⟨flags, decide (verdict = .ready)⟩, next, calls⟩ := by
  rw [Readiness.ensureReady, if_neg (by simp [hr]), hw]

namespace Toolkit

/-- A triple of the bundle for the family belongs to another family. -/
def Clash (t : Toolkit) (r : Registry) (family : Family) (triple : String) (owner : Family) : Prop :=
  ∃ bundle known, t.bundles.get? family = some bundle ∧ triple ∈ bundle.info.triples ∧ owner ≠ family ∧
    r.info? owner = some known ∧ triple ∈ known.triples

/-- What comes of bringing up a family of which no stage is active. -/
inductive BringUp (t : Toolkit) (family : Family) (r : Registry) : Attempt Readiness Registry → Prop where
  | unsupported : t.bundles.get? family = none →
      BringUp t family r ⟨.failed ⟨family, .metadata, .unsupported family⟩, .initial, r, [⟨.metadata, family⟩]⟩
  | clash {triple : String} {owner : Family} : t.Clash r family triple owner →
      BringUp t family r
        ⟨.failed ⟨family, .metadata, .duplicateTriple triple owner⟩, .initial, r, [⟨.metadata, family⟩]⟩
  | up {bundle : Bundle} {r' : Registry} {calls : List Call} : t.bundles.get? family = some bundle →
      (∀ triple owner, ¬ t.Clash r family triple owner) →
      (∀ other, other ≠ family → r'.entries.get? other = r.entries.get? other) →
      BringUp t family r ⟨.ready, .complete, r', calls⟩

section
variable {t : Toolkit} {family : Family} {r : Registry}

/-- A bundle whose info is accepted comes up: each stage registers what the next one asks for. -/
theorem ensureReady_of_accepted {bundle : Bundle} (hb : t.bundles.get? family = some bundle)
    (hinfo : bundle.info.family = family) (hmachine : bundle.machine.family = family)
    (accepted : (r.attempt (.info bundle.info)).1 = .ok) :
    ∃ r' calls, Readiness.initial.ensureReady t.provider family r = ⟨.ready, .complete, r', calls⟩ ∧
      ∀ other, other ≠ family → r'.entries.get? other = r.entries.get? other := by
  let r₁ := (r.attempt (.info bundle.info)).2
  let r₂ := (r₁.attempt (.machine bundle.machine)).2
  let r₃ := (r₂.attempt (.decoder family bundle.factory)).2
  have h₁ : t.provider .metadata family r = (.ok, r₁) := by
    rw [provider_of_some hb]
    exact Prod.ext accepted rfl
  have hi : (r₁.info? bundle.machine.family).isSome = true := by
    rw [hmachine, ← hinfo]
    exact Registry.isRegistered_attempt accepted
  have h₂ : t.provider .machineModel family r₁ = (.ok, r₂) := by
    rw [provider_of_some hb]
    exact Prod.ext (Registry.attempt_machine_ok hi) rfl
  have hm : (r₂.machine? family).isSome = true := by
    have hregistered := Registry.isRegistered_attempt (Registry.attempt_machine_ok hi)
    exact hmachine ▸ hregistered
  have h₃ : t.provider .decoder family r₂ = (.ok, r₃) := by
    rw [provider_of_some hb]
    exact Prod.ext (Registry.attempt_decoder_ok bundle.factory hm) rfl
  refine ⟨r₃, [⟨.metadata, family⟩, ⟨.machineModel, family⟩, ⟨.decoder, family⟩],
    Readiness.ensureReady_of_walk rfl ?_, fun other hne => ?_⟩
  · rw [Stage.all, activatePending_ok rfl h₁, activatePending_ok rfl h₂, activatePending_ok rfl h₃]
    rfl
  · calc r₃.entries.get? other
      _ = r₂.entries.get? other := r₂.get?_attempt_of_ne hne
      _ = r₁.entries.get? other := r₁.get?_attempt_of_ne fun he => hne (he.trans hmachine)
      _ = r.entries.get? other := r.get?_attempt_of_ne fun he => hne (he.trans hinfo)

theorem bringUp (filed : t.Filed) (agrees : t.Agrees) (wellFormed : r.WellFormed) :
    t.BringUp family r (Readiness.initial.ensureReady t.provider family r) := by
  cases hb : t.bundles.get? family with
  | none =>
    rw [Readiness.ensureReady_of_walk rfl (activatePending_refused rfl (provider_of_none hb .metadata r))]
    exact .unsupported hb
  | some bundle =>
    have hinfo := filed family bundle hb
    have hmachine := (agrees family bundle hb).trans hinfo
    rcases r.attempt_info_cases bundle.info with ⟨triple, owner, known, hrefused, hne, hknown, ht, ht'⟩ | ⟨hok, hfree⟩
    · rw [hinfo] at hne
      rw [wellFormed.info_family owner known hknown] at hrefused
      have hp : t.provider .metadata family r = (.refused (.duplicateTriple triple owner), r) := by
        rw [provider_of_some hb]
        exact hrefused
      rw [Readiness.ensureReady_of_walk rfl (activatePending_refused rfl hp)]
      exact .clash ⟨bundle, known, hb, ht, hne, hknown, ht'⟩
    · obtain ⟨r', calls, hattempt, hsame⟩ := ensureReady_of_accepted hb hinfo hmachine hok
      rw [hattempt]
      refine .up hb ?_ hsame
      rintro triple owner ⟨bundle', known, hb', ht, hne, hknown, ht'⟩
      cases hb.symm.trans hb'
      exact hfree owner known (hinfo.symm ▸ hne) hknown triple ht ht'

end

namespace BringUp
variable {t : Toolkit} {family : Family} {r : Registry} {attempt : Attempt Readiness Registry}

theorem state (h : t.BringUp family r attempt) : attempt.state = .initial ∨ attempt.state = .complete := by
  cases h with
  | unsupported _ => exact .inl rfl
  | clash _ => exact .inl rfl
  | up _ _ _ => exact .inr rfl

theorem verdict_cases (h : t.BringUp family r attempt) :
    attempt.verdict = .ready ∨ attempt.verdict = .failed ⟨family, .metadata, .unsupported family⟩ ∨
      ∃ triple owner, attempt.verdict = .failed ⟨family, .metadata, .duplicateTriple triple owner⟩ := by
  cases h with
  | unsupported _ => exact .inr (.inl rfl)
  | clash _ => exact .inr (.inr ⟨_, _, rfl⟩)
  | up _ _ _ => exact .inl rfl

theorem unsupported_iff (h : t.BringUp family r attempt) :
    attempt.verdict = .failed ⟨family, .metadata, .unsupported family⟩ ↔ t.supports family = false := by
  cases h with
  | unsupported hb => simp [supports, Table.contains, hb]
  | clash hc =>
    obtain ⟨bundle, known, hb, -⟩ := hc
    simp [supports, Table.contains, hb]
  | up hb _ _ => simp [supports, Table.contains, hb]

theorem clash_of_verdict (h : t.BringUp family r attempt) {triple : String} {owner : Family}
    (hv : attempt.verdict = .failed ⟨family, .metadata, .duplicateTriple triple owner⟩) :
    t.Clash r family triple owner := by
  cases h with
  | unsupported _ => cases hv
  | clash hc =>
    cases hv
    exact hc
  | up _ _ _ => cases hv

theorem clash_iff (h : t.BringUp family r attempt) :
    (∃ triple owner, attempt.verdict = .failed ⟨family, .metadata, .duplicateTriple triple owner⟩) ↔
      ∃ triple owner, t.Clash r family triple owner := by
  constructor
  · rintro ⟨triple, owner, hv⟩
    exact ⟨triple, owner, h.clash_of_verdict hv⟩
  · rintro ⟨triple, owner, hc⟩
    cases h with
    | unsupported hb =>
      obtain ⟨bundle, known, hb', -⟩ := hc
      cases hb.symm.trans hb'
    | clash _ => exact ⟨_, _, rfl⟩
    | up _ hfree _ => exact absurd hc (hfree triple owner)

theorem untouched (h : t.BringUp family r attempt) (hv : attempt.verdict ≠ .ready) :
    attempt.state = .initial ∧ attempt.world = r := by
  cases h with
  | unsupported _ => exact ⟨rfl, rfl⟩
  | clash _ => exact ⟨rfl, rfl⟩
  | up _ _ _ => exact absurd rfl hv

theorem others_untouched (h : t.BringUp family r attempt) (hv : attempt.verdict = .ready) {other : Family}
    (hne : other ≠ family) : attempt.world.entries.get? other = r.entries.get? other := by
  cases h with
  | unsupported _ => cases hv
  | clash _ => cases hv
  | up _ _ hsame => exact hsame other hne

end BringUp

/-! ### All stages or none -/

/-- No stage of any family is active without the others. -/
def Even (b : Bench Registry) : Prop :=
  ∀ family, b.initializer.readiness family = .initial ∨ b.initializer.readiness family = .complete

section
variable {t : Toolkit} {b : Bench Registry}

theorem series_even (filed : t.Filed) (agrees : t.Agrees) (family : Family) (callers : Nat) {s : Readiness}
    {r : Registry} (wellFormed : r.WellFormed) (h : s = .initial ∨ s = .complete) :
    (s.series t.provider family callers r).readiness = .initial ∨
      (s.series t.provider family callers r).readiness = .complete := by
  induction callers generalizing s r with
  | zero => exact h
  | succ callers ih =>
    have hworld : (s.ensureReady t.provider family r).world.WellFormed :=
      Readiness.ensureReady_world (fun stage family _ hw => hw.provider t stage family) family s wellFormed
    refine ih hworld ?_
    rcases h with rfl | rfl
    · exact (bringUp filed agrees wellFormed).state
    · exact .inr rfl

theorem Even.perform (h : Even b) (filed : t.Filed) (agrees : t.Agrees) (wellFormed : b.world.WellFormed)
    (request : Request) : Even (b.perform t.provider request).2 := by
  intro family
  have hcell : (b.perform t.provider request).2.initializer.readiness family =
      (b.perform t.provider request).2.cell (.family family) := rfl
  rw [hcell]
  cases hd : request.drive? with
  | none =>
    rw [Bench.cell_perform_of_drive_eq_none t.provider b hd]
    exact h family
  | some drive =>
    obtain ⟨-, -, -, hcells⟩ := Bench.perform_drive t.provider b hd
    rw [hcells]
    split
    · next hc =>
      rw [← hc]
      exact series_even filed agrees drive.family drive.attempts wellFormed (h family)
    · exact h family

theorem Even.snapshot (h : Even b) (family : Family) :
    (∀ stage, (b.initializer.snapshot family).isActive stage = false) ∨
      ∀ stage, (b.initializer.snapshot family).isActive stage = true := by
  rcases h family with hr | hr
  · exact .inl fun stage => by rw [Initializer.snapshot, hr]; cases stage <;> rfl
  · exact .inr fun stage => by rw [Initializer.snapshot, hr]; cases stage <;> rfl

theorem Even.initial_of_not_ready (h : Even b) {family : Family} (notReady : b.initializer.isReady family = false) :
    b.initializer.readiness family = .initial := by
  rcases h family with hr | hr
  · exact hr
  · rw [Initializer.isReady, hr] at notReady
    cases notReady

theorem Reaches.even (reached : t.Reaches b) (filed : t.Filed) (agrees : t.Agrees) : Even b :=
  (Leads.keeps reached (fun request wellFormed h => h.perform filed agrees wellFormed request) (fun _ h => h)
    Registry.wellFormed_empty (Bench.reachable_start _) fun _ => .inl rfl).2.2

/-- Work with a toolkit whose bundles agree with themselves: of every family all stages are active or none is.
    An attempt for a family that is not ready brings it up, or fails at the metadata stage: exactly if there is no
    bundle for the family, as not supported, and exactly if a triple of its bundle belongs to another family, for
    such a triple and family. It changes nothing if it fails, and no entry of another family if it does not. -/
theorem up_or_untouched (bundles : List Bundle) (agrees : (ofBundles bundles).Agrees) {b : Bench Registry}
    (reached : (ofBundles bundles).Reaches b) :
    (∀ family, (∀ stage, (b.initializer.snapshot family).isActive stage = false) ∨
      ∀ stage, (b.initializer.snapshot family).isActive stage = true) ∧
    ∀ family, b.initializer.isReady family = false →
      let t := ofBundles bundles
      let attempt := b.ensureReady t.provider family
      (attempt.verdict = .ready ∨ attempt.verdict = .failed ⟨family, .metadata, .unsupported family⟩ ∨
        ∃ triple owner, attempt.verdict = .failed ⟨family, .metadata, .duplicateTriple triple owner⟩) ∧
      (attempt.verdict = .failed ⟨family, .metadata, .unsupported family⟩ ↔ t.supports family = false) ∧
      ((∃ triple owner, attempt.verdict = .failed ⟨family, .metadata, .duplicateTriple triple owner⟩) ↔
        ∃ triple owner, t.Clash b.world family triple owner) ∧
      (∀ triple owner, attempt.verdict = .failed ⟨family, .metadata, .duplicateTriple triple owner⟩ →
        t.Clash b.world family triple owner) ∧
      (attempt.verdict ≠ .ready → attempt.state.world = b.world ∧
        ∀ other, attempt.state.initializer.snapshot other = b.initializer.snapshot other ∧
          attempt.state.initializer.isReady other = b.initializer.isReady other) ∧
      (attempt.verdict = .ready → ∀ other, other ≠ family →
        attempt.state.world.entries.get? other = b.world.entries.get? other) := by
  have filed := filed_ofBundles bundles
  have even := reached.even filed agrees
  refine ⟨even.snapshot, fun family notReady => ?_⟩
  have initial := even.initial_of_not_ready notReady
  have bringUp : (ofBundles bundles).BringUp family b.world
      ((b.initializer.readiness family).ensureReady (ofBundles bundles).provider family b.world) := by
    rw [initial]
    exact bringUp filed agrees reached.wellFormed.1
  refine ⟨bringUp.verdict_cases, bringUp.unsupported_iff, bringUp.clash_iff, fun _ _ => bringUp.clash_of_verdict,
    fun hv => ⟨(bringUp.untouched hv).2, fun other => ?_⟩, fun hv _ => bringUp.others_untouched hv⟩
  have same : (b.ensureReady (ofBundles bundles).provider family).state.initializer.readiness other =
      b.initializer.readiness other := by
    refine (Initializer.readiness_put _ family other _).trans ?_
    split
    · next he => rw [(bringUp.untouched hv).1, ← he, initial]
    · rfl
  simp only [Initializer.snapshot, Initializer.isReady, same, and_self]

/-- A comes up. B lists a triple of A, is refused, and leaves everything as it is. -/
theorem clashing_bundle_untouched :
    let t := ofBundles [⟨⟨⟨"A"⟩, "a", "", ["x"]⟩, ⟨⟨"A"⟩, ["p"], "p", 4, 4, 4⟩, Decoder.rawWordFactory⟩,
      ⟨⟨⟨"B"⟩, "b", "", ["y", "x"]⟩, ⟨⟨"B"⟩, ["q"], "q", 4, 4, 4⟩, Decoder.rawWordFactory⟩]
    let b := ((Bench.start .empty).perform t.provider (.ensureReady ⟨"A"⟩)).2
    t.Agrees ∧ t.Reaches b ∧ b.initializer.isReady ⟨"A"⟩ = true ∧ b.initializer.isReady ⟨"B"⟩ = false ∧
      (b.ensureReady t.provider ⟨"B"⟩).verdict = .failed ⟨⟨"B"⟩, .metadata, .duplicateTriple "x" ⟨"A"⟩⟩ ∧
      (b.ensureReady t.provider ⟨"B"⟩).state.world = b.world := by
  intro t b
  have agrees : t.Agrees := agrees_ofBundles (by simp)
  have reached : t.Reaches b := .single (.request (.inTurn _ _))
  have notReady : b.initializer.isReady ⟨"B"⟩ = false := by decide
  have hv : (b.ensureReady t.provider ⟨"B"⟩).verdict =
      .failed ⟨⟨"B"⟩, .metadata, .duplicateTriple "x" ⟨"A"⟩⟩ := by decide
  obtain ⟨-, -, -, -, untouched, -⟩ := (up_or_untouched _ agrees reached).2 ⟨"B"⟩ notReady
  exact ⟨agrees, reached, by decide, notReady, hv, (untouched (by rw [hv]; simp)).1⟩

end

end Toolkit

end GpuListing
