import GpuListing.Capability.Readiness
import GpuListing.Table

/-! # Readiness of many families

An initializer keeps a readiness for each family that was asked for. Asking for a family's state or bringing
it up enters the family; looking does not. -/

namespace GpuListing

/-- The readiness of each family that was asked for. -/
structure Initializer where
  states : Table Family Readiness

namespace Initializer

/-- No family was asked for. -/
def empty : Initializer := ⟨.empty⟩

/-- The readiness of a family, the initial one if it is not entered. -/
def readiness (i : Initializer) (family : Family) : Readiness := (i.states.get? family).getD .initial

/-- The initializer with a family's readiness. -/
def put (i : Initializer) (family : Family) (r : Readiness) : Initializer := ⟨i.states.set family r⟩

/-- The initializer with the family entered. -/
def enter (i : Initializer) (family : Family) : Initializer := i.put family (i.readiness family)

/-- Brings a family up. -/
def ensureReady {World : Type} (provider : Provider World) (family : Family) (i : Initializer)
    (world : World) : Attempt Initializer World :=
  let attempt := (i.readiness family).ensureReady provider family world
  { attempt with state := i.put family attempt.state }

/-- The family is up. -/
def isReady (i : Initializer) (family : Family) : Bool := (i.readiness family).ready

/-- The active stages of a family. -/
def snapshot (i : Initializer) (family : Family) : Flags := (i.readiness family).flags

/-- The families that are entered, in order. -/
def families (i : Initializer) : List Family := Family.sort i.states.keys

/-! ### What a family's readiness is afterwards -/

theorem readiness_put (i : Initializer) (family other : Family) (r : Readiness) :
    (i.put family r).readiness other = if family = other then r else i.readiness other := by
  simp only [readiness, put, Table.get?_set]
  split <;> rfl

@[simp] theorem readiness_enter (i : Initializer) (family other : Family) :
    (i.enter family).readiness other = i.readiness other := by
  rw [enter, readiness_put]
  split
  · next h => rw [h]
  · rfl

theorem put_put (i : Initializer) (family : Family) (first second : Readiness) :
    (i.put family first).put family second = i.put family second := by
  simp only [put, Table.set_set]

end Initializer

end GpuListing
