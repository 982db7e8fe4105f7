import GpuListing.Proofs.Capability.TraceLaw
import GpuListing.Proofs.Registry.Holding
import GpuListing.Proofs.Toolkit.Work

/-! # Registries that a toolkit fills alone

A registry that is written by the primitives of one toolkit only, called directly or by attempts to bring a
family up. What it holds for a family comes from the family's bundle. -/

namespace GpuListing

namespace Toolkit

/-! ### The primitives of one toolkit -/

/-- Calls of the toolkit's primitives lead from one registry to another; the table may come into another order at
    any moment. -/
inductive Serves (t : Toolkit) (r : Registry) : List Event → Registry → Prop where
  | nil : Serves t r [] r
  | call {events : List Event} {next : Registry} (stage : Stage) (family : Family) : Serves t r events next →
      Serves t r (events ++ [⟨⟨stage, family⟩, (t.provider stage family next).1⟩]) (t.provider stage family next).2
  | reorder {events : List Event} {next next' : Registry} : Serves t r events next →
      next'.entries.entries.Perm next.entries.entries → Serves t r events next'

/-- What is registered at the stages comes from the bundle of the family. -/
def Stocked (t : Toolkit) (P : Stage → Prop) (r : Registry) : Prop :=
  ∀ family stage registered, P stage → r.held? family stage = some registered →
    ∃ bundle, t.bundles.get? family = some bundle ∧ registered = registration bundle family stage

variable {t : Toolkit} {r : Registry} {P : Stage → Prop}

theorem stocked_empty : t.Stocked P .empty := by
  intro family stage registered _ h
  rw [Registry.held?_empty] at h
  cases h

theorem Stocked.of_perm {r' : Registry} (h : t.Stocked P r) (order : r'.entries.entries.Perm r.entries.entries) :
    t.Stocked P r' := by
  intro family stage registered hp hheld
  rw [Registry.held?_of_perm family order] at hheld
  exact h family stage registered hp hheld

theorem Stocked.provider (h : t.Stocked P r)
    (named : ∀ stage family bundle, P stage → t.bundles.get? family = some bundle →
      (registration bundle family stage).family = family)
    (stage : Stage) (family : Family) : t.Stocked P (t.provider stage family r).2 := by
  cases hb : t.bundles.get? family with
  | none =>
    rw [provider_of_none hb]
    exact h
  | some bundle =>
    rw [provider_of_some hb]
    intro owner known registered hp hheld
    rw [Registry.held?_attempt, Option.or_eq_some_iff] at hheld
    rcases hheld with hheld | ⟨-, hheld⟩
    · exact h owner known registered hp hheld
    · split at hheld
      · next hnew =>
        obtain ⟨-, howner, hknown⟩ := hnew
        rw [stage_registration] at hknown
        subst hknown
        rw [named stage family bundle hp hb] at howner
        subst howner
        exact ⟨bundle, hb, (Option.some.inj hheld).symm⟩
      · cases hheld

/-- What is registered for a family that has a bundle is the bundle's. -/
theorem Stocked.held?_eq (h : t.Stocked P r) {family : Family} {stage : Stage} (hp : P stage) {bundle : Bundle}
    (hb : t.bundles.get? family = some bundle) (hs : r.isRegistered family stage = true) :
    r.held? family stage = some (registration bundle family stage) := by
  rw [← Registry.isSome_held?] at hs
  obtain ⟨registered, hheld⟩ := Option.isSome_iff_exists.mp hs
  obtain ⟨found, hfound, rfl⟩ := h family stage registered hp hheld
  cases hb.symm.trans hfound
  exact hheld

namespace Serves
variable {events : List Event} {r' : Registry}

theorem append {more : List Event} {r'' : Registry} (h : t.Serves r events r') (h' : t.Serves r' more r'') :
    t.Serves r (events ++ more) r'' := by
  induction h' with
  | nil => rwa [List.append_nil]
  | call stage family _ ih =>
    rw [← List.append_assoc]
    exact ih.call stage family
  | reorder _ order ih => exact ih.reorder order

theorem wellFormed (h : t.Serves r events r') (wellFormed : r.WellFormed) : r'.WellFormed := by
  induction h with
  | nil => exact wellFormed
  | call stage family _ ih => exact ih.provider t stage family
  | reorder _ order ih => exact ih.of_perm order

theorem stocked (h : t.Serves r events r') (stocked : t.Stocked P r)
    (named : ∀ stage family bundle, P stage → t.bundles.get? family = some bundle →
      (registration bundle family stage).family = family) : t.Stocked P r' := by
  induction h with
  | nil => exact stocked
  | call stage family _ ih => exact ih.provider named stage family
  | reorder _ order ih => exact ih.of_perm order

end Serves

/-! ### Work with one toolkit -/

/-- The calls that a request makes lead to the registry that it leaves, however it is performed. -/
theorem serves_request {b b' : Bench Registry} {request : Request} {reply : Reply}
    (performs : Bench.Performs t.provider b request reply b') (reachable : b.Reachable) :
    t.Serves b.world (b.events t.provider request) b'.world := by
  let start : Bench (Registry × List Event) := ⟨b.initializer, b.slots, (b.world, [])⟩
  have alike : b.Alike (fun world state => state.1 = world) start := ⟨rfl, rfl, rfl⟩
  have serves : t.Serves b.world (start.perform t.provider.recorded request).2.world.2
      (start.perform t.provider.recorded request).2.world.1 :=
    Bench.perform_world (P := fun state => t.Serves b.world state.2 state.1)
      (fun stage family _ h => h.call stage family) start request .nil
  have hworld := ((Provider.mirrors_recorded t.provider).perform alike request).2.world
  rw [hworld, ← (performs.like reachable).1] at serves
  exact serves

/-- Requests lead to the bench from one where nothing is registered and no family was asked for, and make the calls;
    the table of the registry may come into another order between them. -/
inductive Works (t : Toolkit) : List Event → Bench Registry → Prop where
  | start : Works t [] (Bench.start .empty)
  | request {events : List Event} {b b' : Bench Registry} {request : Request} {reply : Reply} : Works t events b →
      Bench.Performs t.provider b request reply b' → Works t (events ++ b.events t.provider request) b'
  | reorder {events : List Event} {b : Bench Registry} {r : Registry} : Works t events b →
      r.entries.entries.Perm b.world.entries.entries → Works t events { b with world := r }

namespace Works
variable {events : List Event} {b : Bench Registry}

theorem reaches (h : t.Works events b) : t.Reaches b := by
  induction h with
  | start => exact .refl
  | request _ performs ih => exact ih.tail (.request performs)
  | reorder _ order ih => exact ih.tail (.reorder _ order)

theorem serves (h : t.Works events b) : t.Serves .empty events b.world := by
  induction h with
  | start => exact .nil
  | request works performs ih => exact ih.append (serves_request performs works.reaches.wellFormed.2)
  | reorder _ order ih => exact ih.reorder order

end Works

end Toolkit

end GpuListing
