import GpuListing.Capability.Bench

/-! # Callers one after another

What several callers come to when they bring the same state up one after another. On a bench,
`ensureEach` is such a series on the state of the family. -/

namespace GpuListing

variable {World : Type}

/-- What several attempts leave: their verdicts, the state, the world, and the calls they made. -/
structure Series (World : Type) where
  verdicts : List Verdict
  readiness : Readiness
  world : World
  calls : List Call

namespace Readiness

/-- So many attempts one after another. -/
def series (provider : Provider World) (family : Family) : (callers : Nat) → Readiness → World → Series World
  | 0, r, world => ⟨[], r, world, []⟩
  | callers + 1, r, world =>
    let first := r.ensureReady provider family world
    let rest := series provider family callers first.state first.world
    ⟨first.verdict :: rest.verdicts, rest.readiness, rest.world, first.calls ++ rest.calls⟩

variable (provider : Provider World) (family : Family)

@[simp] theorem length_verdicts_series (callers : Nat) (r : Readiness) (world : World) :
    (r.series provider family callers world).verdicts.length = callers := by
  induction callers generalizing r world with
  | zero => rfl
  | succ callers ih => simp [series, ih]

/-- A series with one more caller ends with the attempt of that caller. -/
theorem series_succ (callers : Nat) (r : Readiness) (world : World) :
    r.series provider family (callers + 1) world =
      let before := r.series provider family callers world
      let last := before.readiness.ensureReady provider family before.world
      ⟨before.verdicts ++ [last.verdict], last.state, last.world, before.calls ++ last.calls⟩ := by
  induction callers generalizing r world with
  | zero => simp [series]
  | succ callers ih =>
    rw [series, ih]
    simp [series]

end Readiness

namespace Bench

/-- The callers of a family make a series on its state, and leave everything else as it is. -/
theorem ensureEach_eq (provider : Provider World) (family : Family) (callers : Nat) (b : Bench World) :
    let s := (b.initializer.readiness family).series provider family callers b.world
    ensureEach provider family callers b = (s.verdicts, s.calls,
      ⟨if callers = 0 then b.initializer else b.initializer.put family s.readiness, b.slots, s.world⟩) := by
  induction callers generalizing b with
  | zero => rfl
  | succ callers ih =>
    simp only [ensureEach, ih, Readiness.series, Bench.ensureReady, Initializer.ensureReady,
      Initializer.readiness_put, if_true, Nat.succ_ne_zero, if_false]
    cases callers with
    | zero => rfl
    | succ callers => simp only [Nat.succ_ne_zero, if_false, Initializer.put_put]

end Bench

end GpuListing
