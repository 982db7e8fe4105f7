import GpuListing.Capability.Bench
import GpuListing.Proofs.Capability.Ascent

/-! # Providers that answer alike

Where two providers give the same outcomes on worlds that correspond, everything that is built on them
answers the same: an attempt, many callers, a request. A provider that writes its calls down answers like the
one it listens to. -/

namespace GpuListing

variable {World World' : Type} {R : World → World' → Prop} {provider : Provider World}
  {provider' : Provider World'}

/-- On corresponding worlds the providers give the same outcome and lead to corresponding worlds. -/
def Provider.Mirrors (R : World → World' → Prop) (provider : Provider World) (provider' : Provider World') :
    Prop :=
  ∀ stage family world world', R world world' →
    (provider' stage family world').1 = (provider stage family world).1 ∧
      R (provider stage family world).2 (provider' stage family world').2

theorem Provider.mirrors_recorded (provider : Provider World) :
    Provider.Mirrors (fun world state => state.1 = world) provider provider.recorded := by
  rintro stage family world ⟨-, log⟩ rfl
  exact ⟨rfl, rfl⟩

/-- The attempts differ in nothing but their worlds, which correspond. -/
structure Attempt.Alike {State : Type} (R : World → World' → Prop) (a : Attempt State World)
    (a' : Attempt State World') : Prop where
  verdict : a'.verdict = a.verdict
  state : a'.state = a.state
  world : R a.world a'.world
  calls : a'.calls = a.calls

theorem Provider.Mirrors.activatePending (h : Provider.Mirrors R provider provider') (family : Family)
    (stages : List Stage) (flags : Flags) {world : World} {world' : World'} (hw : R world world') :
    (activatePending provider family stages flags world).Alike R
      (activatePending provider' family stages flags world') := by
  induction stages generalizing flags world world' with
  | nil => exact ⟨rfl, rfl, hw, rfl⟩
  | cons stage rest ih =>
    by_cases ha : flags.isActive stage = true
    · simpa only [activatePending_active ha] using ih flags hw
    · rw [Bool.not_eq_true] at ha
      obtain ⟨ho, hnext⟩ := h stage family world world' hw
      rcases hp : provider stage family world with ⟨outcome, next⟩
      rcases hp' : provider' stage family world' with ⟨outcome', next'⟩
      rw [hp, hp'] at ho hnext
      obtain rfl : outcome' = outcome := ho
      cases outcome' with
      | ok =>
        have walk := ih (flags.activate stage) hnext
        rw [activatePending_ok ha hp, activatePending_ok ha hp']
        exact ⟨walk.verdict, walk.state, walk.world, congrArg (List.cons ⟨stage, family⟩) walk.calls⟩
      | refused reason =>
        rw [activatePending_refused ha hp, activatePending_refused ha hp']
        exact ⟨rfl, rfl, hnext, rfl⟩
      | aborted =>
        rw [activatePending_aborted ha hp, activatePending_aborted ha hp']
        exact ⟨rfl, rfl, hnext, rfl⟩

theorem Provider.Mirrors.ensureReady (h : Provider.Mirrors R provider provider') (family : Family)
    (r : Readiness) {world : World} {world' : World'} (hw : R world world') :
    (r.ensureReady provider family world).Alike R (r.ensureReady provider' family world') := by
  unfold Readiness.ensureReady
  split
  · exact ⟨rfl, rfl, hw, rfl⟩
  · have walk := h.activatePending family Stage.all r.flags hw
    exact ⟨walk.verdict, by simp only [walk.state, walk.verdict], walk.world, walk.calls⟩

/-- The benches hold the same states over corresponding worlds. -/
structure Bench.Alike (R : World → World' → Prop) (b : Bench World) (b' : Bench World') : Prop where
  initializer : b'.initializer = b.initializer
  slots : b'.slots = b.slots
  world : R b.world b'.world

namespace Provider.Mirrors
variable (h : Provider.Mirrors R provider provider') {b : Bench World} {b' : Bench World'}
include h

theorem benchEnsureReady (hb : b.Alike R b') (family : Family) :
    (b'.ensureReady provider' family).verdict = (b.ensureReady provider family).verdict ∧
      (b'.ensureReady provider' family).calls = (b.ensureReady provider family).calls ∧
      (b.ensureReady provider family).state.Alike R (b'.ensureReady provider' family).state := by
  have attempt := h.ensureReady family (b.initializer.readiness family) hb.world
  simp only [Bench.ensureReady, Initializer.ensureReady, hb.initializer]
  exact ⟨attempt.verdict, attempt.calls, ⟨by rw [attempt.state], hb.slots, attempt.world⟩⟩

theorem ensureEach (family : Family) (callers : Nat) (hb : b.Alike R b') :
    (Bench.ensureEach provider' family callers b').1 = (Bench.ensureEach provider family callers b).1 ∧
      (Bench.ensureEach provider' family callers b').2.1 = (Bench.ensureEach provider family callers b).2.1 ∧
      (Bench.ensureEach provider family callers b).2.2.Alike R
        (Bench.ensureEach provider' family callers b').2.2 := by
  induction callers generalizing b b' with
  | zero => exact ⟨rfl, rfl, hb⟩
  | succ callers ih =>
    obtain ⟨hv, hc, hnext⟩ := h.benchEnsureReady hb family
    obtain ⟨hvs, hcs, hlast⟩ := ih hnext
    simp only [Bench.ensureEach, hv, hc, hvs, hcs]
    exact ⟨trivial, trivial, hlast⟩

theorem perform (hb : b.Alike R b') (request : Request) :
    (b'.perform provider' request).1 = (b.perform provider request).1 ∧
      (b.perform provider request).2.Alike R (b'.perform provider' request).2 := by
  cases request with
  | ensureReady family =>
    obtain ⟨hv, hc, hnext⟩ := h.benchEnsureReady hb family
    simp only [Bench.perform, hv, hc]
    exact ⟨trivial, hnext⟩
  | isReady family => exact ⟨by simp only [Bench.perform, hb.initializer], hb⟩
  | snapshot family => exact ⟨by simp only [Bench.perform, hb.initializer], hb⟩
  | families => exact ⟨by simp only [Bench.perform, hb.initializer], hb⟩
  | state family =>
    simp only [Bench.perform, hb.initializer]
    exact ⟨trivial, ⟨rfl, hb.slots, hb.world⟩⟩
  | activate stage family =>
    obtain ⟨ho, hnext⟩ := h stage family _ _ hb.world
    simp only [Bench.perform, ho]
    exact ⟨trivial, ⟨hb.initializer, hb.slots, hnext⟩⟩
  | ensureSlot name family =>
    have attempt := h.ensureReady family (b.slot name) hb.world
    have hslot : b'.slot name = b.slot name := by simp only [Bench.slot, hb.slots]
    simp only [Bench.perform, hslot, attempt.verdict, attempt.calls, attempt.state, hb.slots]
    exact ⟨trivial, ⟨hb.initializer, rfl, attempt.world⟩⟩
  | slotState name =>
    have hslot : b'.slot name = b.slot name := by simp only [Bench.slot, hb.slots]
    simp only [Bench.perform, hslot, hb.slots]
    exact ⟨trivial, ⟨hb.initializer, rfl, hb.world⟩⟩
  | ensureTogether family callers =>
    obtain ⟨hvs, hcs, hlast⟩ := h.ensureEach family callers hb
    simp only [Bench.perform, hvs, hcs]
    exact ⟨trivial, hlast⟩

end Provider.Mirrors

end GpuListing
