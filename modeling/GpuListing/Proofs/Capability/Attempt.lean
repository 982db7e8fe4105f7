import GpuListing.Proofs.Capability.Mirror

/-! # One attempt on a state

A state is `Sound` when its flags are ordered and its mark is set exactly when every stage is active. Attempts
keep it so, whatever provider they use and whatever family they name. `Attempted` tells what one attempt on a sound
state calls and answers, and `InTurn` what several do one after another. -/

namespace GpuListing

variable {World : Type}

namespace Readiness

/-- The flags are ordered, and the mark is set exactly when every stage is active. -/
structure Sound (r : Readiness) : Prop where
  ordered : r.flags.isOrdered = true
  mark : r.ready = r.flags.isReady

/-- The state comes of attempts on the initial one, each through any provider and for any family. -/
inductive Reachable : Readiness → Prop where
  | initial : Reachable .initial
  | attempt {r : Readiness} {World : Type} (provider : Provider World) (family : Family) (world : World) :
      Reachable r → Reachable (r.ensureReady provider family world).state

/-- The calls of an attempt, with their outcomes. -/
def events (provider : Provider World) (family : Family) (r : Readiness) (world : World) : List Event :=
  (r.ensureReady provider.recorded family (world, [])).world.2

/-- What no primitive breaks, no attempt breaks. -/
theorem ensureReady_world {provider : Provider World} {P : World → Prop}
    (step : ∀ stage family world, P world → P (provider stage family world).2) (family : Family) (r : Readiness)
    {world : World} (h : P world) : P (r.ensureReady provider family world).world := by
  unfold Readiness.ensureReady
  split
  · exact h
  · exact activatePending_world step family Stage.all r.flags h

theorem sound_initial : Readiness.initial.Sound := ⟨rfl, rfl⟩

/-! ### Attempts with a log -/

/-- An attempt that is written down makes an ascent, and the mark is then set exactly if it came to the top. -/
theorem Sound.ascent_recorded {r : Readiness} (h : r.Sound) (provider : Provider World) (family : Family)
    (world : World) (log : List Event) :
    ∃ events, (r.ensureReady provider.recorded family (world, log)).world.2 = log ++ events ∧
      Ascent family r.flags events (r.ensureReady provider.recorded family (world, log)).verdict
        (r.ensureReady provider.recorded family (world, log)).state.flags ∧
      (r.ensureReady provider.recorded family (world, log)).state.ready =
        decide ((r.ensureReady provider.recorded family (world, log)).verdict = .ready) ∧
      (r.ensureReady provider.recorded family (world, log)).calls = events.map Event.call := by
  unfold Readiness.ensureReady
  by_cases hr : r.ready = true
  · have hpending : r.flags.pending = [] := (Flags.pending_eq_nil_iff _).mpr (h.mark ▸ hr)
    rw [if_pos hr]
    exact ⟨[], by simp, .top hpending, by simpa using hr, rfl⟩
  · obtain ⟨events, hlog, hascent, hcalls⟩ := activatePending_ascent provider family h.ordered world log
    rw [if_neg hr, activatePending_dropWhile]
    exact ⟨events, hlog, hascent, rfl, hcalls⟩

/-- Where an attempt starts to write, nothing else depends on what is already written. -/
theorem recorded_alike (provider : Provider World) (family : Family) (r : Readiness) (world : World)
    (log : List Event) :
    (r.ensureReady provider family world).Alike (fun world state => state.1 = world)
      (r.ensureReady provider.recorded family (world, log)) :=
  provider.mirrors_recorded.ensureReady family r rfl

theorem Sound.ascent {r : Readiness} (h : r.Sound) (provider : Provider World) (family : Family) (world : World) :
    Ascent family r.flags (r.events provider family world) (r.ensureReady provider family world).verdict
        (r.ensureReady provider family world).state.flags ∧
      (r.ensureReady provider family world).state.ready =
        decide ((r.ensureReady provider family world).verdict = .ready) ∧
      (r.ensureReady provider family world).calls = (r.events provider family world).map Event.call := by
  obtain ⟨events, hlog, hascent, hready, hcalls⟩ := h.ascent_recorded provider family world []
  have alike := recorded_alike provider family r world []
  rw [alike.verdict, alike.state] at hascent hready
  rw [alike.calls] at hcalls
  obtain rfl : r.events provider family world = events := hlog
  exact ⟨hascent, hready, hcalls⟩

/-! ### What attempts keep -/

theorem Sound.of_ascent {r r' : Readiness} (h : r.Sound) {family : Family} {events : List Event} {verdict : Verdict}
    (ascent : Ascent family r.flags events verdict r'.flags) (hr : r'.ready = decide (verdict = .ready)) : r'.Sound where
  ordered := ascent.ordered h.ordered
  mark := by
    rw [hr, Bool.eq_iff_iff, decide_eq_true_iff]
    exact ascent.ready_iff

theorem Sound.attempt {r : Readiness} (h : r.Sound) (provider : Provider World) (family : Family) (world : World) :
    (r.ensureReady provider family world).state.Sound :=
  have ⟨ascent, hready, _⟩ := h.ascent provider family world
  h.of_ascent ascent hready

theorem Reachable.sound {r : Readiness} (h : r.Reachable) : r.Sound := by
  induction h with
  | initial => exact sound_initial
  | attempt provider family world _ ih => exact ih.attempt provider family world

/-! ### What one attempt calls and answers -/

/-- What an attempt for a family amounts to: the calls that it makes from a state, its answer, and the state that it
leaves. -/
structure Attempted (family : Family) (before : Readiness) (events : List Event) (verdict : Verdict)
    (after : Readiness) : Prop where
  /-- Every call is for the family. -/
  family_eq : ∀ e ∈ events, e.call.family = family
  /-- The first call is for the first stage that is pending. -/
  first : ∀ e, events.head? = some e → before.flags.nextPending? = some e.stage
  /-- The calls are for the stages that follow one another from there. -/
  consecutive : events.map Event.stage <+: before.flags.pending
  /-- Nothing is called after a call that fails. -/
  upToFailure : ∀ earlier e later, events = earlier ++ e :: later → e.outcome ≠ .ok → later = []
  /-- If no call fails, every pending stage is called. -/
  upToTop : (∀ e ∈ events, e.outcome = .ok) → events.map Event.stage = before.flags.pending
  /-- The stages whose calls succeeded become active, and no others. -/
  isActive_iff : ∀ stage, after.flags.isActive stage = true ↔
    before.flags.isActive stage = true ∨ ∃ e ∈ events, e.Succeeded stage
  ready_iff : verdict = .ready ↔ after.ready = true
  /-- A failure names the family, the stage whose call was refused, and the reason. -/
  failed_iff : ∀ failure, verdict = .failed failure ↔ failure.family = family ∧
    ∃ e ∈ events, e.stage = failure.stage ∧ e.outcome = .refused failure.reason
  aborted_iff : verdict = .aborted ↔ ∃ e ∈ events, e.outcome = .aborted

theorem Sound.attempted_of_ascent {r r' : Readiness} (h : r.Sound) {family : Family} {events : List Event}
    {verdict : Verdict} (ascent : Ascent family r.flags events verdict r'.flags)
    (hr : r'.ready = decide (verdict = .ready)) : Attempted family r events verdict r' := by
  have hprefix := ascent.stages_prefix h.ordered
  exact {
    family_eq := ascent.family_eq
    first := fun e he => by
      obtain ⟨rest, hrest⟩ := List.head?_eq_some_iff.mp he
      rw [hrest, List.map_cons] at hprefix
      obtain ⟨tail, htail⟩ := hprefix
      rw [← Flags.head?_pending, ← htail]
      rfl
    consecutive := hprefix
    upToFailure := fun _ _ _ he hf => ascent.last_of_failed he hf
    upToTop := ascent.stages_eq h.ordered
    isActive_iff := ascent.isActive_iff
    ready_iff := by rw [hr, decide_eq_true_iff]
    failed_iff := ascent.failed_iff
    aborted_iff := ascent.aborted_iff }

theorem Sound.attempted {r : Readiness} (h : r.Sound) (provider : Provider World) (family : Family) (world : World) :
    (r.ensureReady provider family world).calls = (r.events provider family world).map Event.call ∧
      Attempted family r (r.events provider family world) (r.ensureReady provider family world).verdict
        (r.ensureReady provider family world).state :=
  have ⟨ascent, hready, hcalls⟩ := h.ascent provider family world
  ⟨hcalls, h.attempted_of_ascent ascent hready⟩

/-- Attempts for a family one after another: their calls, their answers, and the state that they leave. -/
inductive InTurn (family : Family) : Readiness → List Event → List Verdict → Readiness → Prop where
  | nil (r : Readiness) : InTurn family r [] [] r
  | cons {before between after : Readiness} {events more : List Event} {verdict : Verdict} {verdicts : List Verdict} :
      Attempted family before events verdict between → InTurn family between more verdicts after →
      InTurn family before (events ++ more) (verdict :: verdicts) after

end Readiness

end GpuListing
