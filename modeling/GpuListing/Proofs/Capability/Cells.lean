import GpuListing.Proofs.Capability.Attempt
import GpuListing.Proofs.Capability.Sequence

/-! # The states of a bench

A bench holds a state for each family in its initializer and one in each of its slots. A request that brings
a state up makes a series of attempts on it, for one family; `perform_drive` says so once for all such
requests. No other request changes a state. -/

namespace GpuListing

variable {World : Type}

/-- A state of a bench: that of a family in the initializer, or the one in a slot. -/
inductive Cell where
  | family (family : Family)
  | slot (name : String)
  deriving DecidableEq

/-- Attempts on a state. -/
structure Drive where
  cell : Cell
  family : Family
  attempts : Nat

namespace Request

/-- The attempts that a request makes. -/
def drive? : Request → Option Drive
  | .ensureReady family => some ⟨.family family, family, 1⟩
  | .ensureSlot name family => some ⟨.slot name, family, 1⟩
  | .ensureTogether family callers => some ⟨.family family, family, callers⟩
  | _ => none

/-- The cell of the state that a request brings up. -/
def cell? (request : Request) : Option Cell := request.drive?.map Drive.cell

end Request

/-- The verdicts that an answer tells. -/
def Answer.told : Answer → List Verdict
  | .verdict v => [v]
  | .verdicts vs => vs
  | _ => []

namespace Bench

/-- The readiness in a cell. -/
def cell (b : Bench World) : Cell → Readiness
  | .family family => b.initializer.readiness family
  | .slot name => b.slot name

theorem cell_congr {World' : Type} {b : Bench World} {b' : Bench World'} (hi : b'.initializer = b.initializer)
    (hs : b'.slots = b.slots) (cell : Cell) : b'.cell cell = b.cell cell := by
  cases cell <;> simp only [Bench.cell, slot, hi, hs]

theorem cell_putFamily (b : Bench World) (family : Family) (r : Readiness) (world : World) (cell : Cell) :
    (⟨b.initializer.put family r, b.slots, world⟩ : Bench World).cell cell =
      if cell = .family family then r else b.cell cell := by
  cases cell with
  | family other => simp only [Bench.cell, Initializer.readiness_put, Cell.family.injEq, eq_comm]
  | slot name => rfl

theorem cell_setSlot (b : Bench World) (name : String) (r : Readiness) (world : World) (cell : Cell) :
    (⟨b.initializer, b.slots.set name r, world⟩ : Bench World).cell cell =
      if cell = .slot name then r else b.cell cell := by
  cases cell with
  | family other => rfl
  | slot other =>
    have hslot := slot_set (⟨b.initializer, b.slots, world⟩ : Bench World) name other r
    simp only [Cell.slot.injEq, eq_comm (a := other)]
    exact hslot

/-- A request makes its attempts in series, on its state and no other. -/
theorem perform_drive (provider : Provider World) (b : Bench World) {request : Request} {drive : Drive}
    (h : request.drive? = some drive) :
    let s := (b.cell drive.cell).series provider drive.family drive.attempts b.world
    (b.perform provider request).1.answer.told = s.verdicts ∧
      (b.perform provider request).1.calls = s.calls ∧ (b.perform provider request).2.world = s.world ∧
      ∀ cell, (b.perform provider request).2.cell cell =
        if cell = drive.cell then s.readiness else b.cell cell := by
  cases request with
  | ensureReady family =>
    obtain rfl := Option.some.inj h
    refine ⟨rfl, ?_, rfl, cell_putFamily b family _ _⟩
    exact (List.append_nil _).symm
  | ensureSlot name family =>
    obtain rfl := Option.some.inj h
    refine ⟨rfl, ?_, rfl, cell_setSlot b name _ _⟩
    exact (List.append_nil _).symm
  | ensureTogether family callers =>
    obtain rfl := Option.some.inj h
    simp only [perform, ensureEach_eq]
    refine ⟨rfl, rfl, rfl, fun cell => ?_⟩
    by_cases hz : callers = 0
    · subst hz
      simp only [if_true, Readiness.series]
      split
      · next hc => rw [hc]
      · rfl
    · simp only [hz, if_false]
      exact cell_putFamily b family _ _ cell
  | isReady _ | snapshot _ | families | state _ | activate _ _ | slotState _ => cases h

/-- A request that brings no state up leaves all of them as they are. -/
theorem cell_perform_of_drive_eq_none (provider : Provider World) (b : Bench World) {request : Request}
    (h : request.drive? = none) (cell : Cell) : (b.perform provider request).2.cell cell = b.cell cell := by
  cases request with
  | state family =>
    cases cell with
    | family other => exact Initializer.readiness_enter _ _ _
    | slot name => rfl
  | slotState name =>
    refine (cell_setSlot b name (b.slot name) b.world cell).trans ?_
    split
    · next hc => rw [hc]; rfl
    · rfl
  | isReady _ | snapshot _ | families | activate _ _ => rfl
  | ensureReady _ | ensureSlot _ _ | ensureTogether _ _ => cases h

theorem cell_perform_of_ne (provider : Provider World) (b : Bench World) {request : Request} {cell : Cell}
    (h : request.cell? ≠ some cell) : (b.perform provider request).2.cell cell = b.cell cell := by
  cases hd : request.drive? with
  | none => exact cell_perform_of_drive_eq_none provider b hd cell
  | some drive =>
    have hne : cell ≠ drive.cell := fun hc => h (by rw [Request.cell?, hd, hc]; rfl)
    rw [(perform_drive provider b hd).2.2.2 cell, if_neg hne]

end Bench

/-! ### Reachable states -/

theorem Readiness.Reachable.series {r : Readiness} (h : r.Reachable) (provider : Provider World) (family : Family)
    (callers : Nat) (world : World) : (r.series provider family callers world).readiness.Reachable := by
  induction callers generalizing r world with
  | zero => exact h
  | succ callers ih => exact ih (.attempt provider family world h) _

/-- Attempts led to every state of the bench. -/
def Bench.Reachable (b : Bench World) : Prop := ∀ cell, (b.cell cell).Reachable

namespace Bench

theorem reachable_start (world : World) : (start world).Reachable := fun cell => by
  cases cell <;> exact .initial

theorem Reachable.perform {b : Bench World} (h : b.Reachable) (provider : Provider World) (request : Request) :
    (b.perform provider request).2.Reachable := fun cell => by
  cases hd : request.drive? with
  | none => exact cell_perform_of_drive_eq_none provider b hd cell ▸ h cell
  | some drive =>
    rw [(perform_drive provider b hd).2.2.2 cell]
    split
    · exact (h _).series provider _ _ _
    · exact h cell

end Bench

end GpuListing
