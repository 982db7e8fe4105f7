import GpuListing.Proofs.Capability.Interleaved

/-! # What active stages stand for

A stage becomes active when its call succeeds. If that success brings something about in the world of the
provider, and nothing that happens later undoes it, then whatever a flag of the initializer stands for holds
as long as the flag is set. -/

namespace GpuListing

variable {World : Type} {provider : Provider World} {Q : Family → Stage → World → Prop}

/-- A call that succeeds brings about what its stage stands for, and no call undoes it. -/
structure Provider.Secures (provider : Provider World) (Q : Family → Stage → World → Prop) : Prop where
  brings : ∀ stage family world, (provider stage family world).1 = .ok →
    Q family stage (provider stage family world).2
  keeps : ∀ stage family world owner known, Q owner known world →
    Q owner known (provider stage family world).2

/-- Each active stage of the family has what it stands for. -/
def Flags.Backed (Q : Family → Stage → World → Prop) (family : Family) (flags : Flags) (world : World) : Prop :=
  ∀ stage, flags.isActive stage = true → Q family stage world

theorem Flags.Backed.activate {family : Family} {flags : Flags} {world next : World} {stage : Stage}
    (h : flags.Backed Q family world) (hs : Q family stage next)
    (keeps : ∀ known, Q family known world → Q family known next) :
    (flags.activate stage).Backed Q family next := by
  intro known hk
  rw [isActive_activate, Bool.or_eq_true, decide_eq_true_iff] at hk
  rcases hk with rfl | hk
  · exact hs
  · exact keeps known (h known hk)

namespace Provider.Secures
variable (secures : provider.Secures Q)
include secures

theorem backed_pending (family : Family) (stages : List Stage) (flags : Flags) {world : World}
    (h : flags.Backed Q family world) :
    (activatePending provider family stages flags world).state.Backed Q family
      (activatePending provider family stages flags world).world := by
  fun_induction activatePending provider family stages flags world with
  | case1 => exact h
  | case2 stage rest flags world ha ih => exact ih h
  | case3 stage rest flags world ha next hp attempt ih =>
    have hbrings := secures.brings stage family world
    have hkeeps := secures.keeps stage family world family
    rw [hp] at hbrings hkeeps
    exact ih (h.activate (hbrings rfl) hkeeps)
  | case4 stage rest flags world ha reason next hp =>
    have hkeeps := secures.keeps stage family world family
    rw [hp] at hkeeps
    exact fun known hk => hkeeps known (h known hk)
  | case5 stage rest flags world ha next hp =>
    have hkeeps := secures.keeps stage family world family
    rw [hp] at hkeeps
    exact fun known hk => hkeeps known (h known hk)

theorem backed_ensureReady (family : Family) (r : Readiness) {world : World} (h : r.flags.Backed Q family world) :
    (r.ensureReady provider family world).state.flags.Backed Q family
      (r.ensureReady provider family world).world := by
  unfold Readiness.ensureReady
  split
  · exact h
  · exact secures.backed_pending family Stage.all r.flags h

theorem backed_series (family : Family) (callers : Nat) (r : Readiness) {world : World}
    (h : r.flags.Backed Q family world) :
    (r.series provider family callers world).readiness.flags.Backed Q family
      (r.series provider family callers world).world := by
  induction callers generalizing r world with
  | zero => exact h
  | succ callers ih => exact ih _ (secures.backed_ensureReady family r h)

end Provider.Secures

/-- What no primitive breaks, no series of attempts breaks. -/
theorem Readiness.series_world {P : World → Prop}
    (step : ∀ stage family world, P world → P (provider stage family world).2) (family : Family) (callers : Nat)
    (r : Readiness) {world : World} (h : P world) : P (r.series provider family callers world).world := by
  induction callers generalizing r world with
  | zero => exact h
  | succ callers ih => exact ih _ (ensureReady_world step family r h)

namespace Bench

/-- What no primitive breaks, no request breaks. -/
theorem perform_world {P : World → Prop} (step : ∀ stage family world, P world → P (provider stage family world).2)
    (b : Bench World) (request : Request) (h : P b.world) : P (b.perform provider request).2.world := by
  cases hd : request.drive? with
  | some drive =>
    obtain ⟨-, -, hworld, -⟩ := perform_drive provider b hd
    rw [hworld]
    exact Readiness.series_world step _ _ _ h
  | none =>
    cases request with
    | activate stage family => exact step stage family b.world h
    | isReady _ | snapshot _ | families | state _ | slotState _ => exact h
    | ensureReady _ | ensureSlot _ _ | ensureTogether _ _ => cases hd

/-- A request for the state of a family is for the family. -/
theorem family_of_drive {request : Request} {drive : Drive} (hd : request.drive? = some drive) {family : Family}
    (hc : drive.cell = .family family) : drive.family = family := by
  cases request with
  | ensureReady _ | ensureTogether _ _ =>
    obtain rfl := Option.some.inj hd
    exact Cell.family.inj hc
  | ensureSlot _ _ =>
    obtain rfl := Option.some.inj hd
    cases hc
  | isReady _ | snapshot _ | families | state _ | activate _ _ | slotState _ => cases hd

/-- Each active stage in the initializer has what it stands for. -/
def Backed (Q : Family → Stage → World → Prop) (b : Bench World) : Prop :=
  ∀ family, (b.initializer.readiness family).flags.Backed Q family b.world

theorem backed_start (world : World) : (start world).Backed Q := by
  intro family stage hs
  have hnone : Flags.none.isActive stage = true := hs
  simp at hnone

theorem Backed.perform {b : Bench World} (h : b.Backed Q) (secures : provider.Secures Q) (request : Request) :
    (b.perform provider request).2.Backed Q := by
  intro family
  have hkept : (b.initializer.readiness family).flags.Backed Q family (b.perform provider request).2.world :=
    fun stage hs => perform_world (fun _ _ _ hq => secures.keeps _ _ _ family stage hq) b request (h family stage hs)
  have hcell : (b.perform provider request).2.initializer.readiness family =
      (b.perform provider request).2.cell (.family family) := rfl
  rw [hcell]
  cases hd : request.drive? with
  | none =>
    rw [cell_perform_of_drive_eq_none provider b hd]
    exact hkept
  | some drive =>
    obtain ⟨-, -, hworld, hcells⟩ := perform_drive provider b hd
    rw [hcells]
    split
    · next hc =>
      rw [hworld, family_of_drive hd hc.symm, ← hc]
      exact secures.backed_series family drive.attempts _ (h family)
    · exact hkept

end Bench

end GpuListing
