import GpuListing.Proofs.Registry.Again
import GpuListing.Proofs.Toolkit.Own

/-! # The primitives of a toolkit settle

On a registry that only its own primitives write, what a primitive has once done it never does otherwise: where it
has succeeded it goes on to succeed and has nothing left to do, and the first answer of a metadata primitive, of
whichever kind, is its answer for good. The info of a family is its bundle's, so a later family with a triple of it
is the one to be refused. -/

namespace GpuListing

/-- Which kind of answer an outcome is, whatever it names. -/
inductive Outcome.Kind where
  | ok
  | unsupported
  | missingPrerequisite
  | duplicateTriple
  | toolkit
  | aborted
  deriving DecidableEq

/-- The kind of an outcome. -/
def Outcome.kind : Outcome → Outcome.Kind
  | .ok => .ok
  | .refused (.unsupported _) => .unsupported
  | .refused (.missingPrerequisite _) => .missingPrerequisite
  | .refused (.duplicateTriple _ _) => .duplicateTriple
  | .refused (.toolkit _) => .toolkit
  | .aborted => .aborted

namespace Toolkit
variable {t : Toolkit} {r r' : Registry} {family : Family}

/-! ### Calls that have succeeded -/

/-- What the call registers is there. -/
def Done (t : Toolkit) (call : Call) (r : Registry) : Prop :=
  ∃ bundle, t.bundles.get? call.family = some bundle ∧
    r.isRegistered (registration bundle call.family call.stage).family call.stage = true

theorem Done.grows {call : Call} (h : t.Done call r) (grows : r.Grows r') : t.Done call r' := by
  obtain ⟨bundle, hb, hs⟩ := h
  exact ⟨bundle, hb, grows.isRegistered hs⟩

theorem done_of_ok {stage : Stage} (hok : (t.provider stage family r).1 = .ok) :
    t.Done ⟨stage, family⟩ (t.provider stage family r).2 := by
  cases hb : t.bundles.get? family with
  | none =>
    rw [provider_of_none hb] at hok
    cases hok
  | some bundle =>
    rw [provider_of_some hb] at hok ⊢
    have hregistered := Registry.isRegistered_attempt hok
    rw [stage_registration] at hregistered
    exact ⟨bundle, hb, hregistered⟩

/-- The info of a family is its bundle's, and no other family has a triple of it. -/
theorem info?_eq_of_stocked (filed : t.Filed) (stocked : t.Stocked (· = .metadata) r) {bundle : Bundle}
    (hb : t.bundles.get? family = some bundle) (hs : r.isRegistered family .metadata = true) :
    r.info? bundle.info.family = some bundle.info := by
  rw [filed family bundle hb]
  exact (Registry.held?_info r family bundle.info).mp (stocked.held?_eq rfl hb hs)

theorem Done.again {call : Call} (h : t.Done call r) (filed : t.Filed) (wellFormed : r.WellFormed)
    (stocked : t.Stocked (· = .metadata) r) : t.provider call.stage call.family r = (.ok, r) := by
  obtain ⟨bundle, hb, hs⟩ := h
  rw [provider_of_some hb]
  refine wellFormed.attempt_again ((stage_registration bundle call.family call.stage).symm ▸ hs) ?_
  intro info hinfo other
  -- Only the metadata primitive asks for triples, and what it brings is what it brought before.
  obtain ⟨stage, family⟩ := call
  cases stage with
  | metadata =>
    cases hinfo
    have hregistered : r.isRegistered family .metadata = true := filed family bundle hb ▸ hs
    exact wellFormed.not_contests (info?_eq_of_stocked filed stocked hb hregistered) (List.Subset.refl _) other
  | machineModel => cases hinfo
  | decoder => cases hinfo

/-! ### What a metadata primitive answers -/

/-- What the registry shows of a metadata primitive that has been called: which kind of answer it gave. -/
inductive Tells (t : Toolkit) (family : Family) (r : Registry) : Outcome.Kind → Prop where
  | unsupported : t.bundles.get? family = none → Tells t family r .unsupported
  | contested {bundle : Bundle} {other : Family} : t.bundles.get? family = some bundle →
      r.Contests other bundle.info → Tells t family r .duplicateTriple
  | registered {bundle : Bundle} : t.bundles.get? family = some bundle →
      r.info? bundle.info.family = some bundle.info → Tells t family r .ok

namespace Tells
variable {kind : Outcome.Kind}

theorem grows (h : t.Tells family r kind) (grows : r.Grows r') : t.Tells family r' kind := by
  cases h with
  | unsupported hb => exact .unsupported hb
  | contested hb contests => exact .contested hb (grows.contests contests)
  | registered hb hinfo => exact .registered hb (grows.info _ _ hinfo)

theorem kind_eq (h : t.Tells family r kind) (wellFormed : r.WellFormed) :
    (t.provider .metadata family r).1.kind = kind := by
  cases h with
  | unsupported hb => rw [provider_of_none hb]; rfl
  | @contested bundle other hb contests =>
    rw [provider_of_some hb, registration]
    rcases wellFormed.info_outcome bundle.info with ⟨_, _, _, -, -, -, hrefused⟩ | ⟨-, hfree⟩
    · rw [hrefused]; rfl
    · exact absurd contests (hfree other)
  | @registered bundle hb hinfo =>
    rw [provider_of_some hb, registration]
    rcases wellFormed.info_outcome bundle.info with ⟨owner, _, _, contests, -⟩ | ⟨hok, -⟩
    · exact absurd contests (wellFormed.not_contests hinfo (List.Subset.refl _) owner)
    · rw [hok]; rfl

end Tells

theorem tells_of_call (filed : t.Filed) (wellFormed : r.WellFormed) (stocked : t.Stocked (· = .metadata) r) :
    t.Tells family (t.provider .metadata family r).2 (t.provider .metadata family r).1.kind := by
  have stocked' := stocked.provider (fun _ family bundle hp hb => by subst hp; exact filed family bundle hb)
    .metadata family
  cases hb : t.bundles.get? family with
  | none =>
    rw [provider_of_none hb]
    exact .unsupported hb
  | some bundle =>
    rw [provider_of_some hb] at stocked' ⊢
    rcases wellFormed.info_outcome bundle.info with ⟨_, _, _, contests, -, -, hrefused⟩ | ⟨hok, -⟩
    · rw [registration, hrefused]
      exact .contested hb contests
    · have hregistered := Registry.isRegistered_attempt hok
      rw [Registry.Registration.family, filed family bundle hb] at hregistered
      rw [registration, hok]
      exact .registered hb (info?_eq_of_stocked filed stocked' hb hregistered)

/-! ### Runs -/

namespace Serves
variable {events : List Event}

theorem infoStocked (h : t.Serves .empty events r) (filed : t.Filed) : t.Stocked (· = .metadata) r :=
  h.stocked stocked_empty fun _ family bundle hp hb => by subst hp; exact filed family bundle hb

theorem done (h : t.Serves .empty events r) {call : Call} (hok : ⟨call, .ok⟩ ∈ events) : t.Done call r := by
  induction h with
  | nil => cases hok
  | call stage family _ ih =>
    rcases List.mem_append.mp hok with hbefore | hnow
    · exact (ih hbefore).grows (t.grows_provider stage family _)
    · obtain ⟨rfl, hanswer⟩ := Event.mk.inj (List.mem_singleton.mp hnow)
      exact done_of_ok hanswer.symm
  | reorder _ order ih => exact (ih hok).grows (.of_perm order)

theorem tells (h : t.Serves .empty events r) (filed : t.Filed) {outcome : Outcome}
    (hcall : ⟨⟨.metadata, family⟩, outcome⟩ ∈ events) : t.Tells family r outcome.kind := by
  induction h with
  | nil => cases hcall
  | call stage owner serves ih =>
    rcases List.mem_append.mp hcall with hbefore | hnow
    · exact (ih hbefore).grows (t.grows_provider stage owner _)
    · obtain ⟨hcalls, rfl⟩ := Event.mk.inj (List.mem_singleton.mp hnow)
      obtain ⟨rfl, rfl⟩ := Call.mk.inj hcalls
      exact tells_of_call filed (serves.wellFormed Registry.wellFormed_empty) (serves.infoStocked filed)
  | reorder _ order ih => exact (ih hcall).grows (.of_perm order)

end Serves

/-- On a registry that only the toolkit writes, by requests or by calls of primitives in any order, whatever its
    bundles: a primitive that has succeeded once for a family succeeds at every later moment and changes nothing, and
    the metadata primitive of a family answers as it did before, with success, as not supported, or as refused a
    triple. -/
theorem primitives_settle (bundles : List Bundle) :
    (∀ events b, (ofBundles bundles).Works events b → (ofBundles bundles).Serves .empty events b.world) ∧
    ∀ events r, (ofBundles bundles).Serves .empty events r →
      (∀ stage family, ⟨⟨stage, family⟩, .ok⟩ ∈ events → (ofBundles bundles).provider stage family r = (.ok, r)) ∧
      ∀ family outcome, ⟨⟨.metadata, family⟩, outcome⟩ ∈ events →
        ((ofBundles bundles).provider .metadata family r).1.kind = outcome.kind ∧
          (outcome.kind = .ok ∨ outcome.kind = .unsupported ∨ outcome.kind = .duplicateTriple) := by
  have filed := filed_ofBundles bundles
  refine ⟨fun _ _ works => works.serves, fun events r serves => ⟨?_, ?_⟩⟩
  · intro stage family hok
    exact (serves.done hok).again filed (serves.wellFormed Registry.wellFormed_empty) (serves.infoStocked filed)
  · intro family outcome hcall
    have tells := serves.tells filed hcall
    refine ⟨tells.kind_eq (serves.wellFormed Registry.wellFormed_empty), ?_⟩
    generalize outcome.kind = kind at tells
    cases tells with
    | unsupported _ => exact .inr (.inl rfl)
    | contested _ _ => exact .inr (.inr rfl)
    | registered _ _ => exact .inl rfl

/-- The machine model of A is one of B, and B is refused its triple of A: A settles on success, B on the refusal. -/
theorem refused_bundle_settles :
    let bundles : List Bundle := [⟨⟨⟨"A"⟩, "a", "", ["x"]⟩, ⟨⟨"B"⟩, ["p"], "p", 4, 4, 4⟩, Decoder.rawWordFactory⟩,
      ⟨⟨⟨"B"⟩, "b", "", ["y", "x"]⟩, ⟨⟨"B"⟩, ["q"], "q", 4, 4, 4⟩, Decoder.rawWordFactory⟩]
    let t := ofBundles bundles
    let b := ((Bench.start .empty).perform t.provider (.ensureReady ⟨"A"⟩)).2
    let r := (t.provider .metadata ⟨"B"⟩ b.world).2
    t.provider .metadata ⟨"A"⟩ r = (.ok, r) ∧ (t.provider .metadata ⟨"B"⟩ r).1.kind = .duplicateTriple := by
  intro bundles t b r
  obtain ⟨works, settled⟩ := primitives_settle bundles
  have before := works _ b (.request .start (.inTurn _ (.ensureReady ⟨"A"⟩)))
  have hevents : Bench.events t.provider (Bench.start .empty) (.ensureReady ⟨"A"⟩) =
      [⟨⟨.metadata, ⟨"A"⟩⟩, .ok⟩, ⟨⟨.machineModel, ⟨"A"⟩⟩, .refused (.missingPrerequisite .metadata)⟩] := by decide
  rw [hevents] at before
  obtain ⟨again, answers⟩ := settled _ r (before.call .metadata ⟨"B"⟩)
  have hrefused : (t.provider .metadata ⟨"B"⟩ b.world).1 = .refused (.duplicateTriple "x" ⟨"A"⟩) := by decide
  refine ⟨again .metadata ⟨"A"⟩ (by simp), ?_⟩
  refine (answers ⟨"B"⟩ (.refused (.duplicateTriple "x" ⟨"A"⟩)) (List.mem_append_right _ ?_)).1
  rw [List.mem_singleton, ← hrefused]

end Toolkit

end GpuListing
