import GpuListing.Proofs.Capability.Backing
import GpuListing.Proofs.Registry.Growth
import GpuListing.Proofs.Registry.Reachable
import Mathlib.Logic.Relation

/-! # Toolkits at work

A bench whose provider is a toolkit, on which anything may be done: requests, also with callers at once and on
stand-alone states, direct activations, and registrations that go past the toolkit, as those of another toolkit
on the same registry do. What such work keeps is shown once, for requests in turn and for a registry that
grows. -/

namespace GpuListing.Toolkit

/-! ### Bundles -/

/-- Every bundle is found under the family that its info names. -/
def Filed (t : Toolkit) : Prop := ∀ family bundle, t.bundles.get? family = some bundle → bundle.info.family = family

/-- The info and the machine model of every bundle name the same family. -/
def Agrees (t : Toolkit) : Prop :=
  ∀ family bundle, t.bundles.get? family = some bundle → bundle.machine.family = bundle.info.family

theorem get?_foldl_addBundle {family : Family} {bundle : Bundle} (bundles : List Bundle) (t : Toolkit)
    (h : (bundles.foldl addBundle t).bundles.get? family = some bundle) :
    (bundle ∈ bundles ∧ bundle.info.family = family) ∨ t.bundles.get? family = some bundle := by
  induction bundles generalizing t with
  | nil => exact .inr h
  | cons first rest ih =>
    rcases ih (t.addBundle first) h with ⟨hmem, hfamily⟩ | hfound
    · exact .inl ⟨List.mem_cons_of_mem _ hmem, hfamily⟩
    · rw [addBundle, Table.get?_set] at hfound
      split at hfound
      · next he =>
        obtain rfl := Option.some.inj hfound
        exact .inl ⟨List.mem_cons_self, he⟩
      · exact .inr hfound

theorem get?_ofBundles {bundles : List Bundle} {family : Family} {bundle : Bundle}
    (h : (ofBundles bundles).bundles.get? family = some bundle) :
    bundle ∈ bundles ∧ bundle.info.family = family := by
  rcases get?_foldl_addBundle bundles empty h with hadded | hfound
  · exact hadded
  · cases hfound

theorem filed_ofBundles (bundles : List Bundle) : (ofBundles bundles).Filed := fun _ _ h => (get?_ofBundles h).2

theorem agrees_ofBundles {bundles : List Bundle} (h : ∀ bundle ∈ bundles, bundle.machine.family = bundle.info.family) :
    (ofBundles bundles).Agrees := fun _ bundle hb => h bundle (get?_ofBundles hb).1

/-! ### Primitives -/

section Primitives
variable {t : Toolkit} {family : Family}

theorem provider_of_none (h : t.bundles.get? family = none) (stage : Stage) (r : Registry) :
    t.provider stage family r = (.refused (.unsupported family), r) := by
  simp only [provider, h]

theorem provider_of_some {bundle : Bundle} (h : t.bundles.get? family = some bundle) (stage : Stage) (r : Registry) :
    t.provider stage family r = r.attempt (registration bundle family stage) := by
  simp only [provider, h]

theorem stage_registration (bundle : Bundle) (family : Family) (stage : Stage) :
    (registration bundle family stage).stage = stage := by cases stage <;> rfl

theorem grows_provider (t : Toolkit) (stage : Stage) (family : Family) (r : Registry) :
    r.Grows (t.provider stage family r).2 := by
  cases h : t.bundles.get? family with
  | none =>
    rw [provider_of_none h]
    exact .refl r
  | some bundle =>
    rw [provider_of_some h]
    exact r.grows_attempt _

/-- A primitive that succeeds leaves its stage registered for the family, if it is of a stage at which every
    bundle registers something for the family that it is asked for. -/
theorem secures {P : Stage → Prop}
    (named : ∀ stage family bundle, P stage → t.bundles.get? family = some bundle →
      (registration bundle family stage).family = family) :
    t.provider.Secures fun family stage r => P stage → r.isRegistered family stage = true where
  brings stage family r hok hs := by
    cases h : t.bundles.get? family with
    | none =>
      rw [provider_of_none h] at hok
      cases hok
    | some bundle =>
      rw [provider_of_some h] at hok ⊢
      have hregistered := Registry.isRegistered_attempt hok
      rwa [named stage family bundle hs h, stage_registration] at hregistered
  keeps stage family r owner known h hs := (t.grows_provider stage family r).isRegistered (h hs)

end Primitives

/-! ### Work -/

/-- One thing done at a bench of the toolkit. -/
inductive Step (t : Toolkit) : Bench Registry → Bench Registry → Prop where
  | request {b b' : Bench Registry} {request : Request} {reply : Reply} :
      Bench.Performs t.provider b request reply b' → Step t b b'
  | register (b : Bench Registry) (registration : Registry.Registration) :
      Step t b { b with world := (b.world.attempt registration).2 }
  /-- The table of the registry comes into another order. -/
  | reorder (b : Bench Registry) {r : Registry} :
      r.entries.entries.Perm b.world.entries.entries → Step t b { b with world := r }

/-- Work leads from one bench to the other. -/
def Leads (t : Toolkit) : Bench Registry → Bench Registry → Prop := Relation.ReflTransGen t.Step

/-- Work leads to the bench from one where nothing is registered and no family was asked for. -/
def Reaches (t : Toolkit) (b : Bench Registry) : Prop := t.Leads (Bench.start .empty) b

variable {t : Toolkit} {b b' : Bench Registry}

/-- What requests in turn keep on a well-formed registry, and what a registry keeps that grows, work keeps. -/
theorem Leads.keeps {P : Bench Registry → Prop} (leads : t.Leads b b')
    (request : ∀ {b : Bench Registry} (request : Request), b.world.WellFormed → P b →
      P (b.perform t.provider request).2)
    (grow : ∀ {b : Bench Registry} {r : Registry}, b.world.Grows r → P b → P { b with world := r })
    (wellFormed : b.world.WellFormed) (reachable : b.Reachable) (h : P b) :
    b'.world.WellFormed ∧ b'.Reachable ∧ P b' := by
  induction leads with
  | refl => exact ⟨wellFormed, reachable, h⟩
  | tail _ step ih =>
    obtain ⟨hworld, hstates, hp⟩ := ih
    cases step with
    | request performs =>
      obtain rfl := (performs.like hstates).1
      exact ⟨Bench.perform_world (fun stage family _ hw => hw.provider t stage family) _ _ hworld,
        performs.reachable hstates, request _ hworld hp⟩
    | register registration => exact ⟨hworld.attempt registration, hstates, grow (Registry.grows_attempt _ _) hp⟩
    | reorder order => exact ⟨hworld.of_perm order, hstates, grow (.of_perm order) hp⟩

theorem Reaches.wellFormed (reached : t.Reaches b) : b.world.WellFormed ∧ b.Reachable :=
  have ⟨wellFormed, reachable, _⟩ := Leads.keeps (P := fun _ => True) reached (fun _ _ h => h) (fun _ h => h)
    Registry.wellFormed_empty (Bench.reachable_start _) trivial
  ⟨wellFormed, reachable⟩

theorem Reaches.trans (reached : t.Reaches b) (leads : t.Leads b b') : t.Reaches b' :=
  Relation.ReflTransGen.trans reached leads

theorem grows_perform (t : Toolkit) (b : Bench Registry) (request : Request) :
    b.world.Grows (b.perform t.provider request).2.world :=
  Bench.perform_world (fun stage family r h => h.trans (t.grows_provider stage family r)) b request (.refl _)

/-- Nothing is unregistered later. -/
theorem Reaches.grows (reached : t.Reaches b) (leads : t.Leads b b') : b.world.Grows b'.world :=
  have ⟨wellFormed, reachable⟩ := reached.wellFormed
  (leads.keeps (P := fun later => b.world.Grows later.world) (fun _ _ h => h.trans (t.grows_perform _ _))
    (fun hg h => h.trans hg) wellFormed reachable (.refl _)).2.2

/-- An active stage of the initializer is registered, if it is one at which every bundle registers something for
    the family that it is asked for. -/
theorem Reaches.isRegistered (reached : t.Reaches b) {P : Stage → Prop}
    (named : ∀ stage family bundle, P stage → t.bundles.get? family = some bundle →
      (registration bundle family stage).family = family)
    {family : Family} {stage : Stage} (hs : P stage)
    (active : (b.initializer.snapshot family).isActive stage = true) : b.world.isRegistered family stage = true := by
  have hbacked := (Leads.keeps (P := Bench.Backed fun family stage r => P stage → r.isRegistered family stage = true)
    reached (fun request _ h => h.perform (secures named) request)
    (fun hg h family stage hs hp => hg.isRegistered (h family stage hs hp))
    Registry.wellFormed_empty (Bench.reachable_start _) (Bench.backed_start _)).2.2
  exact hbacked family stage active hs

end GpuListing.Toolkit
