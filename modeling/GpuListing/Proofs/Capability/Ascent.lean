import GpuListing.Capability.Readiness

/-! # What an attempt does

An attempt calls the pending stages one after another and ends at the first call that does not succeed.
`Ascent` says this once, with the outcome of every call; whatever else is known of attempts follows from it.
The outcomes come from a provider that writes its calls down. -/

namespace GpuListing

/-! ### Pending stages -/

namespace Flags

/-- The stages from the first one on that is not active. -/
def pending (flags : Flags) : List Stage := Stage.all.dropWhile flags.isActive

theorem head?_pending (flags : Flags) : flags.pending.head? = flags.nextPending? := by
  obtain ⟨m, k, d⟩ := flags
  cases m <;> cases k <;> cases d <;> rfl

theorem pending_eq_nil_iff (flags : Flags) : flags.pending = [] ↔ flags.isReady = true := by
  obtain ⟨m, k, d⟩ := flags
  cases m <;> cases k <;> cases d <;> decide

theorem not_isActive_of_pending {flags : Flags} {stage : Stage} {rest : List Stage}
    (h : flags.pending = stage :: rest) : flags.isActive stage = false := by
  obtain ⟨m, k, d⟩ := flags
  cases m <;> cases k <;> cases d <;> cases h <;> rfl

/-- In ordered flags the pending stages are all that are not active. -/
theorem mem_pending_iff {flags : Flags} (ordered : flags.isOrdered = true) (stage : Stage) :
    stage ∈ flags.pending ↔ flags.isActive stage = false := by
  obtain ⟨m, k, d⟩ := flags
  cases m <;> cases k <;> cases d <;> cases ordered <;> cases stage <;> decide

theorem pending_activate {flags : Flags} (ordered : flags.isOrdered = true) {stage : Stage} {rest : List Stage}
    (h : flags.pending = stage :: rest) :
    (flags.activate stage).pending = rest ∧ (flags.activate stage).isOrdered = true := by
  obtain ⟨m, k, d⟩ := flags
  cases m <;> cases k <;> cases d <;> cases ordered <;> cases h <;> exact ⟨rfl, rfl⟩

/-- Ordered flags are as far as they have stages behind them. -/
theorem rank_phase {flags : Flags} (ordered : flags.isOrdered = true) :
    flags.phase.rank + flags.pending.length = 3 := by
  obtain ⟨m, k, d⟩ := flags
  cases m <;> cases k <;> cases d <;> cases ordered <;> rfl

end Flags

/-! ### Calls with their outcomes -/

/-- A call of a primitive, with what came of it. -/
structure Event where
  call : Call
  outcome : Outcome
  deriving DecidableEq

namespace Event

/-- The stage that the call was for. -/
def stage (e : Event) : Stage := e.call.stage

/-- A call of the stage was refused or cut off. -/
def Failed (stage : Stage) (e : Event) : Prop := e.stage = stage ∧ e.outcome ≠ .ok

/-- A call of the stage succeeded. -/
def Succeeded (stage : Stage) (e : Event) : Prop := e.stage = stage ∧ e.outcome = .ok

end Event

variable {World : Type}

/-- The provider that also writes down its calls. -/
def Provider.recorded (provider : Provider World) : Provider (World × List Event) := fun stage family state =>
  let (outcome, world) := provider stage family state.1
  (outcome, world, state.2 ++ [⟨⟨stage, family⟩, outcome⟩])

/-! ### Ascents -/

/-- An attempt from some flags: its calls, its verdict, and the flags that it leaves. -/
inductive Ascent (family : Family) : Flags → List Event → Verdict → Flags → Prop where
  | top {flags : Flags} : flags.pending = [] → Ascent family flags [] .ready flags
  | ok {flags last : Flags} {stage : Stage} {rest : List Stage} {events : List Event} {verdict : Verdict} :
      flags.pending = stage :: rest → Ascent family (flags.activate stage) events verdict last →
      Ascent family flags (⟨⟨stage, family⟩, .ok⟩ :: events) verdict last
  | refused {flags : Flags} {stage : Stage} {rest : List Stage} {reason : ActivationError} :
      flags.pending = stage :: rest →
      Ascent family flags [⟨⟨stage, family⟩, .refused reason⟩] (.failed ⟨family, stage, reason⟩) flags
  | aborted {flags : Flags} {stage : Stage} {rest : List Stage} :
      flags.pending = stage :: rest → Ascent family flags [⟨⟨stage, family⟩, .aborted⟩] .aborted flags

section Walk
variable {provider : Provider World} {family : Family} {stage : Stage} {rest : List Stage} {flags : Flags}
  {world next : World}

theorem activatePending_active (ha : flags.isActive stage = true) :
    activatePending provider family (stage :: rest) flags world =
      activatePending provider family rest flags world := by
  rw [activatePending, if_pos ha]

theorem activatePending_ok (ha : flags.isActive stage = false) (hp : provider stage family world = (.ok, next)) :
    activatePending provider family (stage :: rest) flags world =
      { activatePending provider family rest (flags.activate stage) next with
        calls := ⟨stage, family⟩ :: (activatePending provider family rest (flags.activate stage) next).calls } := by
  simp only [activatePending, ha, hp]
  rfl

theorem activatePending_refused (ha : flags.isActive stage = false) {reason : ActivationError}
    (hp : provider stage family world = (.refused reason, next)) :
    activatePending provider family (stage :: rest) flags world =
      ⟨.failed ⟨family, stage, reason⟩, flags, next, [⟨stage, family⟩]⟩ := by
  simp only [activatePending, ha, hp]
  rfl

theorem activatePending_aborted (ha : flags.isActive stage = false)
    (hp : provider stage family world = (.aborted, next)) :
    activatePending provider family (stage :: rest) flags world =
      ⟨.aborted, flags, next, [⟨stage, family⟩]⟩ := by
  simp only [activatePending, ha, hp]
  rfl

/-- Where every stage is active nothing is called. -/
theorem activatePending_of_isReady (h : flags.isReady = true) (stages : List Stage) :
    activatePending provider family stages flags world = ⟨.ready, flags, world, []⟩ := by
  induction stages with
  | nil => rfl
  | cons stage rest ih => rw [activatePending_active ((Flags.isReady_iff _).mp h stage), ih]

end Walk

theorem activatePending_dropWhile (provider : Provider World) (family : Family) (stages : List Stage)
    (flags : Flags) (world : World) :
    activatePending provider family stages flags world =
      activatePending provider family (stages.dropWhile flags.isActive) flags world := by
  induction stages with
  | nil => rfl
  | cons stage rest ih =>
    by_cases h : flags.isActive stage = true
    · rw [activatePending_active h, ih, List.dropWhile_cons_of_pos h]
    · rw [List.dropWhile_cons_of_neg h]

/-- What no primitive breaks, no walk breaks. -/
theorem activatePending_world {provider : Provider World} {P : World → Prop}
    (step : ∀ stage family world, P world → P (provider stage family world).2) (family : Family)
    (stages : List Stage) (flags : Flags) {world : World} (h : P world) :
    P (activatePending provider family stages flags world).world := by
  fun_induction activatePending provider family stages flags world with
  | case1 => exact h
  | case2 stage rest flags world ha ih => exact ih h
  | case3 stage rest flags world ha next hp attempt ih =>
    have hnext := step stage family world h
    rw [hp] at hnext
    exact ih hnext
  | case4 stage rest flags world ha reason next hp =>
    have hnext := step stage family world h
    rwa [hp] at hnext
  | case5 stage rest flags world ha next hp =>
    have hnext := step stage family world h
    rwa [hp] at hnext

/-- The calls of a walk over the pending stages form an ascent. -/
theorem activatePending_ascent (provider : Provider World) (family : Family) {flags : Flags}
    (ordered : flags.isOrdered = true) (world : World) (log : List Event) :
    ∃ events, (activatePending provider.recorded family flags.pending flags (world, log)).world.2 = log ++ events ∧
      Ascent family flags events
        (activatePending provider.recorded family flags.pending flags (world, log)).verdict
        (activatePending provider.recorded family flags.pending flags (world, log)).state ∧
      (activatePending provider.recorded family flags.pending flags (world, log)).calls =
        events.map Event.call := by
  generalize hp : flags.pending = stages
  induction stages generalizing flags world log with
  | nil => exact ⟨[], by simp [activatePending], .top hp, rfl⟩
  | cons stage rest ih =>
    have hs := Flags.not_isActive_of_pending hp
    obtain ⟨hrest, hordered⟩ := Flags.pending_activate ordered hp
    rcases hc : provider stage family world with ⟨outcome, next⟩
    have hr : provider.recorded stage family (world, log) =
        (outcome, next, log ++ [⟨⟨stage, family⟩, outcome⟩]) := by
      simp [Provider.recorded, hc]
    cases outcome with
    | ok =>
      obtain ⟨events, hlog, hascent, hcalls⟩ :=
        ih hordered next (log ++ [⟨⟨stage, family⟩, .ok⟩]) hrest
      rw [activatePending_ok hs hr]
      refine ⟨⟨⟨stage, family⟩, .ok⟩ :: events, ?_, .ok hp hascent, ?_⟩
      · simpa using hlog
      · simp [hcalls]
    | refused reason =>
      rw [activatePending_refused hs hr]
      exact ⟨[⟨⟨stage, family⟩, .refused reason⟩], rfl, .refused hp, rfl⟩
    | aborted =>
      rw [activatePending_aborted hs hr]
      exact ⟨[⟨⟨stage, family⟩, .aborted⟩], rfl, .aborted hp, rfl⟩

namespace Ascent
variable {family : Family} {flags last : Flags} {events : List Event} {verdict : Verdict}

theorem ordered (h : Ascent family flags events verdict last) (ordered : flags.isOrdered = true) :
    last.isOrdered = true := by
  induction h with
  | top _ => exact ordered
  | ok hp _ ih => exact ih (Flags.pending_activate ordered hp).2
  | refused _ => exact ordered
  | aborted _ => exact ordered

/-- Only a verdict of readiness leaves every stage active. -/
theorem ready_iff (h : Ascent family flags events verdict last) : verdict = .ready ↔ last.isReady = true := by
  induction h with
  | top hp => simpa using (Flags.pending_eq_nil_iff _).mp hp
  | ok _ _ ih => exact ih
  | refused hp => simp [← Flags.pending_eq_nil_iff, hp]
  | aborted hp => simp [← Flags.pending_eq_nil_iff, hp]

/-- The active stages are those that were active and those with a call that succeeded. -/
theorem isActive_iff (h : Ascent family flags events verdict last) (stage : Stage) :
    last.isActive stage = true ↔ flags.isActive stage = true ∨ ∃ e ∈ events, e.Succeeded stage := by
  induction h with
  | top _ => simp
  | ok _ _ ih =>
    rw [ih, Flags.isActive_activate, Bool.or_eq_true, decide_eq_true_iff, or_comm (a := _ = stage), or_assoc]
    simp [Event.Succeeded, Event.stage]
  | refused _ => simp [Event.Succeeded]
  | aborted _ => simp [Event.Succeeded]

theorem family_eq (h : Ascent family flags events verdict last) : ∀ e ∈ events, e.call.family = family := by
  induction h with
  | top _ => simp
  | ok _ _ ih => simpa using ih
  | refused _ => simp
  | aborted _ => simp

theorem stages_prefix (h : Ascent family flags events verdict last) (ordered : flags.isOrdered = true) :
    events.map Event.stage <+: flags.pending := by
  induction h with
  | top _ => simp
  | ok hp _ ih =>
    obtain ⟨hrest, hordered⟩ := Flags.pending_activate ordered hp
    rw [hp, List.map_cons, List.cons_prefix_cons]
    exact ⟨rfl, hrest ▸ ih hordered⟩
  | refused hp => simp [hp, Event.stage]
  | aborted hp => simp [hp, Event.stage]

/-- Nothing is called after a call that fails. -/
theorem last_of_failed (h : Ascent family flags events verdict last) {earlier later : List Event} {e : Event}
    (he : events = earlier ++ e :: later) (hf : e.outcome ≠ .ok) : later = [] := by
  induction h generalizing earlier with
  | top _ => simp at he
  | ok _ _ ih =>
    cases earlier with
    | nil =>
      obtain ⟨rfl, -⟩ := List.cons.inj he
      exact absurd rfl hf
    | cons first earlier => exact ih (List.cons.inj he).2
  | refused _ => cases earlier <;> simp_all
  | aborted _ => cases earlier <;> simp_all

theorem stages_eq (h : Ascent family flags events verdict last) (ordered : flags.isOrdered = true)
    (hok : ∀ e ∈ events, e.outcome = .ok) : events.map Event.stage = flags.pending := by
  induction h with
  | top hp => simp [hp]
  | ok hp _ ih =>
    obtain ⟨hrest, hordered⟩ := Flags.pending_activate ordered hp
    rw [hp, List.map_cons, ih hordered fun e he => hok e (List.mem_cons_of_mem _ he), hrest]
    rfl
  | refused _ => simp at hok
  | aborted _ => simp at hok

theorem failed_iff (h : Ascent family flags events verdict last) (failure : ActivationFailure) :
    verdict = .failed failure ↔ failure.family = family ∧
      ∃ e ∈ events, e.stage = failure.stage ∧ e.outcome = .refused failure.reason := by
  induction h with
  | top _ => simp
  | ok _ _ ih => simpa using ih
  | refused _ =>
    obtain ⟨f, s, reason⟩ := failure
    simp only [Verdict.failed.injEq, ActivationFailure.mk.injEq, List.mem_singleton, exists_eq_left,
      Event.stage, Outcome.refused.injEq]
    exact ⟨fun ⟨hf, hs, hr⟩ => ⟨hf.symm, hs, hr⟩, fun ⟨hf, hs, hr⟩ => ⟨hf.symm, hs, hr⟩⟩
  | aborted _ => simp

theorem aborted_iff (h : Ascent family flags events verdict last) :
    verdict = .aborted ↔ ∃ e ∈ events, e.outcome = .aborted := by
  induction h with
  | top _ => simp
  | ok _ _ ih => simpa using ih
  | refused _ => simp
  | aborted _ => simp

end Ascent

end GpuListing
