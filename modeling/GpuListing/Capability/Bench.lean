import GpuListing.Capability.Initializer

/-! # Runs

A bench holds an initializer, stand-alone readiness states in named slots, and the world of the provider
that they share. A run performs requests one after another; each reply tells the answer and the calls of
primitives that the request made. -/

namespace GpuListing

/-- Something asked of a bench. -/
inductive Request where
  /-- Bring the family up through the initializer. -/
  | ensureReady (family : Family)
  | isReady (family : Family)
  | snapshot (family : Family)
  | families
  /-- Enter the family and tell its readiness. -/
  | state (family : Family)
  /-- Call a primitive of the provider directly. -/
  | activate (stage : Stage) (family : Family)
  /-- Bring a family up on the stand-alone state in a slot. -/
  | ensureSlot (slot : String) (family : Family)
  | slotState (slot : String)
  /-- Several callers bring the family up through the initializer. -/
  | ensureTogether (family : Family) (callers : Nat)

/-- What a bench answers. -/
inductive Answer where
  | verdict (v : Verdict)
  | truth (b : Bool)
  | flags (f : Flags)
  | families (fs : List Family)
  | readiness (r : Readiness)
  | outcome (o : Outcome)
  | verdicts (vs : List Verdict)

/-- An answer, and the calls made for it. -/
structure Reply where
  answer : Answer
  calls : List Call

/-- An initializer, stand-alone states, and the world of their provider. -/
structure Bench (World : Type) where
  initializer : Initializer
  slots : Table String Readiness
  world : World

namespace Bench

variable {World : Type}

/-- A bench before any request. -/
def start (world : World) : Bench World := ⟨.empty, .empty, world⟩

/-- The state in a slot, the initial one if the slot is new. -/
def slot (b : Bench World) (name : String) : Readiness := (b.slots.get? name).getD .initial

/-- One caller brings the family up through the initializer. -/
def ensureReady (provider : Provider World) (b : Bench World) (family : Family) :
    Attempt (Bench World) World :=
  let attempt := b.initializer.ensureReady provider family b.world
  { attempt with state := { b with initializer := attempt.state, world := attempt.world } }

/-- Callers one after another: their verdicts, their calls, and the bench they leave. -/
def ensureEach (provider : Provider World) (family : Family) :
    (callers : Nat) → Bench World → List Verdict × List Call × Bench World
  | 0, b => ([], [], b)
  | callers + 1, b =>
    let first := b.ensureReady provider family
    let (verdicts, calls, last) := ensureEach provider family callers first.state
    (first.verdict :: verdicts, first.calls ++ calls, last)

/-- Performs a request. -/
def perform (provider : Provider World) (b : Bench World) : Request → Reply × Bench World
  | .ensureReady family =>
    let attempt := b.ensureReady provider family
    (⟨.verdict attempt.verdict, attempt.calls⟩, attempt.state)
  | .isReady family => (⟨.truth (b.initializer.isReady family), []⟩, b)
  | .snapshot family => (⟨.flags (b.initializer.snapshot family), []⟩, b)
  | .families => (⟨.families b.initializer.families, []⟩, b)
  | .state family =>
    (⟨.readiness (b.initializer.readiness family), []⟩, { b with initializer := b.initializer.enter family })
  | .activate stage family =>
    let (outcome, world) := provider stage family b.world
    (⟨.outcome outcome, [⟨stage, family⟩]⟩, { b with world := world })
  | .ensureSlot name family =>
    let attempt := (b.slot name).ensureReady provider family b.world
    (⟨.verdict attempt.verdict, attempt.calls⟩,
      { b with slots := b.slots.set name attempt.state, world := attempt.world })
  | .slotState name =>
    (⟨.readiness (b.slot name), []⟩, { b with slots := b.slots.set name (b.slot name) })
  | .ensureTogether family callers =>
    let (verdicts, calls, last) := ensureEach provider family callers b
    (⟨.verdicts verdicts, calls⟩, last)

/-- Performs requests one after another. -/
def run (provider : Provider World) : List Request → Bench World → List Reply × Bench World
  | [], b => ([], b)
  | request :: rest, b =>
    let (reply, next) := b.perform provider request
    let (replies, last) := run provider rest next
    (reply :: replies, last)

theorem slot_set (b : Bench World) (name other : String) (r : Readiness) :
    ({ b with slots := b.slots.set name r } : Bench World).slot other = if name = other then r else b.slot other := by
  simp only [slot, Table.get?_set]
  split <;> rfl

end Bench

end GpuListing
