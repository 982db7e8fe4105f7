import GpuListing.Proofs.Toolkit.BringUp
import GpuListing.Proofs.Toolkit.Decodable
import GpuListing.Proofs.Toolkit.Own

/-! # Families come up in any order

With bundles that agree with themselves and share no triple, no family stands in the way of another. Whatever the
order in which families are asked for, and however often, in the end those that have a bundle are up with what the
bundle says, and nothing else has happened. -/

namespace GpuListing

/-- Initializers in which the same families are entered list the same families. -/
theorem Initializer.families_eq {i i' : Initializer}
    (same : ∀ family, family ∈ i'.states.keys ↔ family ∈ i.states.keys) : i'.families = i.families := by
  refine Family.eq_of_pairwise (Family.pairwise_sort i'.states.nodup) (Family.pairwise_sort i.states.nodup) ?_
  intro family
  simp only [Initializer.families, Family.mem_sort, same]

namespace Toolkit

/-- No triple is in the bundles of two families. -/
def Apart (t : Toolkit) : Prop :=
  ∀ family other bundle bundle', family ≠ other → t.bundles.get? family = some bundle →
    t.bundles.get? other = some bundle' → ∀ triple ∈ bundle.info.triples, triple ∉ bundle'.info.triples

theorem apart_ofBundles {bundles : List Bundle}
    (h : ∀ bundle ∈ bundles, ∀ bundle' ∈ bundles, bundle.info.family ≠ bundle'.info.family →
      ∀ triple ∈ bundle.info.triples, triple ∉ bundle'.info.triples) : (ofBundles bundles).Apart := by
  intro family other bundle bundle' hne hb hb'
  obtain ⟨hmem, rfl⟩ := get?_ofBundles hb
  obtain ⟨hmem', rfl⟩ := get?_ofBundles hb'
  exact h bundle hmem bundle' hmem' hne

/-- Families were asked for one after another, at a bench where nothing was registered and no family was asked for;
    the table of the registry may come into another order in between. -/
inductive Asked (t : Toolkit) : List Family → Bench Registry → Prop where
  | start : Asked t [] (Bench.start .empty)
  | ask {asked : List Family} {b : Bench Registry} (family : Family) : Asked t asked b →
      Asked t (asked ++ [family]) (b.perform t.provider (.ensureReady family)).2
  | reorder {asked : List Family} {b : Bench Registry} {r : Registry} : Asked t asked b →
      r.entries.entries.Perm b.world.entries.entries → Asked t asked { b with world := r }

variable {t : Toolkit} {asked : List Family} {b : Bench Registry}

theorem Asked.works (h : t.Asked asked b) : ∃ events, t.Works events b := by
  induction h with
  | start => exact ⟨[], .start⟩
  | ask family _ ih =>
    obtain ⟨events, works⟩ := ih
    exact ⟨_, works.request (.inTurn _ (.ensureReady family))⟩
  | reorder _ order ih =>
    obtain ⟨events, works⟩ := ih
    exact ⟨events, works.reorder order⟩

theorem stages_named (filed : t.Filed) (agrees : t.Agrees) (stage : Stage) {family : Family} {bundle : Bundle}
    (hb : t.bundles.get? family = some bundle) : (registration bundle family stage).family = family := by
  cases stage with
  | metadata => exact filed family bundle hb
  | machineModel => exact (agrees family bundle hb).trans (filed family bundle hb)
  | decoder => rfl

theorem Asked.stocked (h : t.Asked asked b) (filed : t.Filed) (agrees : t.Agrees) :
    t.Stocked (fun _ => True) b.world := by
  obtain ⟨_, works⟩ := h.works
  exact works.serves.stocked stocked_empty fun stage _ _ _ hb => stages_named filed agrees stage hb

/-- Where every info is that of its family's bundle, bundles that are apart do not clash. -/
theorem not_clash (apart : t.Apart) {r : Registry} (stocked : t.Stocked (fun _ => True) r) (family : Family)
    (triple : String) (owner : Family) : ¬ t.Clash r family triple owner := by
  rintro ⟨bundle, known, hb, ht, hne, hknown, ht'⟩
  obtain ⟨theirs, htheirs, heq⟩ :=
    stocked owner .metadata (.info known) trivial ((Registry.held?_info r owner known).mpr hknown)
  cases heq
  exact apart family owner bundle theirs (Ne.symm hne) hb htheirs triple ht ht'

/-! ### What has come of asking -/

/-- The families that were asked for and have a bundle are up; of the others nothing is registered. -/
structure Stands (t : Toolkit) (asked : List Family) (b : Bench Registry) : Prop where
  readiness : ∀ family, b.initializer.readiness family =
    if family ∈ asked ∧ t.supports family = true then .complete else .initial
  vacant : ∀ family stage, ¬ (family ∈ asked ∧ t.supports family = true) → b.world.held? family stage = none
  entered : ∀ family, family ∈ b.initializer.states.keys ↔ family ∈ asked

theorem stands_start (t : Toolkit) : t.Stands [] (Bench.start .empty) where
  readiness _ := (if_neg fun h => List.not_mem_nil h.1).symm
  vacant family stage _ := Registry.held?_empty family stage
  entered _ := ⟨nofun, nofun⟩

/-- Bringing up a family that has a bundle succeeds, and touches no other family. -/
theorem Stands.attempt (h : t.Stands asked b) (filed : t.Filed) (agrees : t.Agrees) (apart : t.Apart)
    (wellFormed : b.world.WellFormed) (stocked : t.Stocked (fun _ => True) b.world) (family : Family) :
    let attempt := (b.initializer.readiness family).ensureReady t.provider family b.world
    attempt.state = (if t.supports family = true then .complete else .initial) ∧
      (t.supports family = false → attempt.world = b.world) ∧
      ∀ other, other ≠ family → attempt.world.entry other = b.world.entry other := by
  rw [h.readiness]
  -- A family that is up is left as it is; any other one starts from the beginning.
  by_cases hup : family ∈ asked ∧ t.supports family = true
  · rw [if_pos hup, if_pos hup.2]
    exact ⟨rfl, fun _ => rfl, fun _ _ => rfl⟩
  · rw [if_neg hup]
    have bringUp : t.BringUp family b.world (Readiness.initial.ensureReady t.provider family b.world) :=
      bringUp filed agrees wellFormed
    generalize Readiness.initial.ensureReady t.provider family b.world = attempt at bringUp
    cases bringUp with
    | unsupported hb =>
      have hsupports : t.supports family = false := by rw [supports, Table.contains, hb]; rfl
      rw [hsupports]
      exact ⟨rfl, fun _ => rfl, fun _ _ => rfl⟩
    | clash hc => exact absurd hc (not_clash apart stocked _ _ _)
    | up hb _ hsame =>
      have hsupports : t.supports family = true := by rw [supports, Table.contains, hb]; rfl
      rw [hsupports]
      refine ⟨rfl, fun hnone => absurd hnone.symm Bool.false_ne_true, fun other hne => ?_⟩
      rw [Registry.entry, hsame other hne, Registry.entry]

theorem Stands.ask (h : t.Stands asked b) (filed : t.Filed) (agrees : t.Agrees) (apart : t.Apart)
    (wellFormed : b.world.WellFormed) (stocked : t.Stocked (fun _ => True) b.world) (family : Family) :
    t.Stands (asked ++ [family]) (b.perform t.provider (.ensureReady family)).2 := by
  obtain ⟨hstate, hsame, hothers⟩ := h.attempt filed agrees apart wellFormed stocked family
  refine ⟨fun other => ?_, fun other stage => ?_, fun other => ?_⟩
  · refine (Initializer.readiness_put _ family other _).trans ?_
    by_cases he : family = other
    · subst he
      rw [if_pos rfl, hstate]
      simp only [List.mem_append, List.mem_singleton, or_true, true_and]
    · rw [if_neg he, h.readiness]
      simp only [List.mem_append, List.mem_singleton, Ne.symm he, or_false]
  · intro hdown
    by_cases he : other = family
    · subst he
      have hsupports : t.supports other = false := by simpa using hdown
      refine (congrArg (Registry.held? · other stage) (hsame hsupports)).trans (h.vacant other stage ?_)
      rw [hsupports]
      exact fun hup => Bool.false_ne_true hup.2
    · refine (congrArg (Entry.held? · other stage) (hothers other he)).trans (h.vacant other stage ?_)
      simpa only [List.mem_append, List.mem_singleton, he, or_false] using hdown
  · refine (Table.mem_keys_set _ family other _).trans ?_
    rw [h.entered, List.mem_append, List.mem_singleton, or_comm]

theorem Asked.stands (h : t.Asked asked b) (filed : t.Filed) (agrees : t.Agrees) (apart : t.Apart) :
    t.Stands asked b := by
  induction h with
  | start => exact stands_start t
  | ask family before ih =>
    obtain ⟨_, works⟩ := before.works
    exact ih.ask filed agrees apart works.reaches.wellFormed.1 (before.stocked filed agrees) family
  | reorder _ order ih =>
    exact ⟨ih.readiness, fun family stage hdown => (Registry.held?_of_perm family order stage).trans
      (ih.vacant family stage hdown), ih.entered⟩

/-- What is registered in the end: the bundles of the families that were asked for. -/
theorem Asked.held?_eq (h : t.Asked asked b) (filed : t.Filed) (agrees : t.Agrees) (apart : t.Apart)
    (family : Family) (stage : Stage) : b.world.held? family stage =
      if family ∈ asked then (t.bundles.get? family).map (registration · family stage) else none := by
  have stands := h.stands filed agrees apart
  cases hb : t.bundles.get? family with
  | none =>
    rw [stands.vacant family stage fun hup => by simp [supports, Table.contains, hb] at hup]
    split <;> rfl
  | some bundle =>
    split
    · next hasked =>
      obtain ⟨_, works⟩ := h.works
      have reached := works.reaches
      have ready : b.initializer.isReady family = true := by
        rw [Initializer.isReady, stands.readiness, if_pos ⟨hasked, by rw [supports, Table.contains, hb]; rfl⟩]
        rfl
      refine (h.stocked filed agrees).held?_eq trivial hb ?_
      exact reached.wellFormed.1.isRegistered_of_decoder (reached.decoder_of_isReady ready) stage
    · next hasked => exact stands.vacant family stage fun hup => hasked hup.1

/-- With bundles that agree with themselves and share no triple, two ways to ask for the same families, in any order
    and with any repetition, end alike: no look-up tells the registries apart, every family has the same stages
    active, and the same families were asked for. Ready are those that have a bundle, with what it says, and for no
    other is anything registered. -/
theorem any_order (bundles : List Bundle) (agrees : (ofBundles bundles).Agrees) (apart : (ofBundles bundles).Apart)
    {first second : List Family} {b b' : Bench Registry} (asked : (ofBundles bundles).Asked first b)
    (asked' : (ofBundles bundles).Asked second b') (same : ∀ family, family ∈ first ↔ family ∈ second) :
    b.world.Alike b'.world ∧
      (∀ family, b'.initializer.snapshot family = b.initializer.snapshot family ∧
        b'.initializer.isReady family = b.initializer.isReady family) ∧
      b'.initializer.families = b.initializer.families ∧
      (∀ family, b.initializer.isReady family = true ↔
        family ∈ first ∧ (ofBundles bundles).supports family = true) ∧
      (∀ family bundle, family ∈ first → (ofBundles bundles).bundles.get? family = some bundle →
        b.world.info? family = some bundle.info ∧ b.world.machine? family = some bundle.machine ∧
          b.world.factory? family = some bundle.factory) ∧
      ∀ family stage, ¬ (family ∈ first ∧ (ofBundles bundles).supports family = true) →
        b.world.isRegistered family stage = false := by
  have filed := filed_ofBundles bundles
  have stands := asked.stands filed agrees apart
  have stands' := asked'.stands filed agrees apart
  have held := asked.held?_eq filed agrees apart
  have held' := asked'.held?_eq filed agrees apart
  have readiness : ∀ family, b'.initializer.readiness family = b.initializer.readiness family := by
    intro family
    simp only [stands.readiness, stands'.readiness, same]
  refine ⟨?_, fun family => ?_, ?_, fun family => ?_, fun family bundle hasked hb => ?_, fun family stage hdown => ?_⟩
  · obtain ⟨_, works⟩ := asked.works
    obtain ⟨_, works'⟩ := asked'.works
    refine works.reaches.wellFormed.1.alike works'.reaches.wellFormed.1 fun family stage => ?_
    simp only [held, held', same]
  · rw [Initializer.snapshot, Initializer.snapshot, Initializer.isReady, Initializer.isReady, readiness]
    exact ⟨rfl, rfl⟩
  · refine Initializer.families_eq fun family => ?_
    rw [stands.entered, stands'.entered, same]
  · rw [Initializer.isReady, stands.readiness]
    split
    · next hup => exact ⟨fun _ => hup, fun _ => rfl⟩
    · next hdown => exact ⟨fun hready => absurd hready Bool.false_ne_true, fun hup => absurd hup hdown⟩
  · have hbundle : ∀ stage, b.world.held? family stage = some (registration bundle family stage) := fun stage => by
      rw [held, if_pos hasked, hb, Option.map_some]
    exact ⟨(Registry.held?_info ..).mp (hbundle .metadata), (Registry.held?_machine ..).mp (hbundle .machineModel),
      (Registry.held?_decoder ..).mp (hbundle .decoder)⟩
  · rw [← Registry.isSome_held?, stands.vacant family stage hdown]
    rfl

/-- A and B come up, C has no bundle. -/
theorem two_orders_alike :
    let t := ofBundles [⟨⟨⟨"A"⟩, "a", "", ["x"]⟩, ⟨⟨"A"⟩, ["p"], "p", 4, 4, 4⟩, Decoder.rawWordFactory⟩,
      ⟨⟨⟨"B"⟩, "b", "", ["y", "z"]⟩, ⟨⟨"B"⟩, ["q"], "q", 4, 4, 4⟩, Decoder.rawWordFactory⟩]
    let ask := fun (b : Bench Registry) (name : String) => (b.perform t.provider (.ensureReady ⟨name⟩)).2
    let b := ask (ask (ask (Bench.start .empty) "A") "C") "B"
    let b' := ask (ask (ask (ask (Bench.start .empty) "B") "B") "C") "A"
    t.Agrees ∧ t.Apart ∧ t.Asked [⟨"A"⟩, ⟨"C"⟩, ⟨"B"⟩] b ∧ t.Asked [⟨"B"⟩, ⟨"B"⟩, ⟨"C"⟩, ⟨"A"⟩] b' ∧
      b.world.Alike b'.world ∧ b.initializer.isReady ⟨"B"⟩ = true ∧
      b.world.isRegistered ⟨"C"⟩ .metadata = false := by
  intro t ask b b'
  have agrees : t.Agrees := agrees_ofBundles (by simp)
  have apart : t.Apart := apart_ofBundles (by decide)
  have asked : t.Asked [⟨"A"⟩, ⟨"C"⟩, ⟨"B"⟩] b := ((Asked.start.ask ⟨"A"⟩).ask ⟨"C"⟩).ask ⟨"B"⟩
  have asked' : t.Asked [⟨"B"⟩, ⟨"B"⟩, ⟨"C"⟩, ⟨"A"⟩] b' :=
    (((Asked.start.ask ⟨"B"⟩).ask ⟨"B"⟩).ask ⟨"C"⟩).ask ⟨"A"⟩
  have same : ∀ family, family ∈ [⟨"A"⟩, ⟨"C"⟩, (⟨"B"⟩ : Family)] ↔ family ∈ [⟨"B"⟩, ⟨"B"⟩, ⟨"C"⟩, (⟨"A"⟩ : Family)] := by
    intro family
    simp only [List.mem_cons, List.not_mem_nil, or_false]
    constructor
    · rintro (h | h | h) <;> simp [h]
    · rintro (h | h | h | h) <;> simp [h]
  obtain ⟨alike, -, -, ready, -, vacant⟩ := any_order _ agrees apart asked asked' same
  exact ⟨agrees, apart, asked, asked', alike, (ready ⟨"B"⟩).mpr ⟨by simp, by decide⟩,
    vacant ⟨"C"⟩ .metadata fun hup => absurd hup.2 (by decide)⟩

end Toolkit

end GpuListing
