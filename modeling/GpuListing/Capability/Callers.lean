import GpuListing.Capability.Readiness

/-! # Callers at once

Several callers bring one family up on one readiness state. A caller looks at the mark without holding
anything; if the mark is not set it waits until no one holds the flags, takes them, visits the stages, and
gives them back. The moves of different callers may come in any order. `move_eq_none_iff` tells who cannot
move: a caller that is done, and one that waits while the flags are held. -/

namespace GpuListing

/-- How far a caller has come. -/
inductive Caller where
  /-- It has not looked at the mark yet. -/
  | arriving
  /-- It found the mark not set, and waits for the flags. -/
  | waiting
  /-- It holds the flags, with these stages left to visit. -/
  | holding (left : List Stage)
  /-- It holds the flags; the primitive of a stage has succeeded, and these stages are left after it. -/
  | activated (stage : Stage) (left : List Stage)
  /-- It has set the mark and still holds the flags. -/
  | leaving
  | done (verdict : Verdict)
  deriving DecidableEq

/-- What callers share: the readiness of the family, whether one of them holds the flags, the world of the
    provider, and the calls of primitives so far. -/
structure Shared (World : Type) where
  readiness : Readiness
  held : Bool
  world : World
  calls : List Call

namespace Shared

variable {World : Type}

/-- What is shared before any caller moves. -/
def start (readiness : Readiness) (world : World) : Shared World := ⟨readiness, false, world, []⟩

/-- The stage is active. -/
def activate (s : Shared World) (stage : Stage) : Shared World :=
  { s with readiness := { s.readiness with flags := s.readiness.flags.activate stage } }

/-- The mark is set. -/
def publish (s : Shared World) : Shared World := { s with readiness := { s.readiness with ready := true } }

/-- A primitive has been called. -/
def called (s : Shared World) (call : Call) (world : World) : Shared World :=
  { s with world := world, calls := s.calls ++ [call] }

/-- No one holds the flags. -/
def release (s : Shared World) : Shared World := { s with held := false }

end Shared

namespace Caller

variable {World : Type}

/-- The caller holds the flags. -/
def holds : Caller → Bool
  | holding _ => true
  | activated .. => true
  | leaving => true
  | _ => false

/-- Visits a stage: one that is active is left alone, another one is called. -/
def visit (provider : Provider World) (family : Family) (stage : Stage) (left : List Stage)
    (s : Shared World) : Caller × Shared World :=
  if s.readiness.flags.isActive stage then (holding left, s)
  else
    match provider stage family s.world with
    | (.ok, world) => (activated stage left, s.called ⟨stage, family⟩ world)
    | (.refused reason, world) =>
      (done (.failed ⟨family, stage, reason⟩), (s.called ⟨stage, family⟩ world).release)
    | (.aborted, world) => (done .aborted, (s.called ⟨stage, family⟩ world).release)

/-- The next move of a caller, if it can move. -/
def move (provider : Provider World) (family : Family) (c : Caller) (s : Shared World) :
    Option (Caller × Shared World) :=
  match c with
  | arriving => some (if s.readiness.ready then done .ready else waiting, s)
  | waiting => if s.held then none else some (holding Stage.all, { s with held := true })
  | holding [] => some (leaving, s.publish)
  | holding (stage :: left) => some (visit provider family stage left s)
  | activated stage left => some (holding left, s.activate stage)
  | leaving => some (done .ready, s.release)
  | done _ => none

/-- A caller cannot move if it is done, or if it waits while the flags are held. -/
theorem move_eq_none_iff (provider : Provider World) (family : Family) (c : Caller) (s : Shared World) :
    c.move provider family s = none ↔ (∃ verdict, c = done verdict) ∨ c = waiting ∧ s.held = true := by
  cases c with
  | holding left => cases left <;> simp [move]
  | waiting => simp [move]
  | _ => simp [move]

end Caller

/-- Callers, and what they share. -/
structure Crowd (World : Type) where
  callers : List Caller
  shared : Shared World

namespace Crowd

variable {World : Type}

/-- So many callers before any of them moves. -/
def start (count : Nat) (readiness : Readiness) (world : World) : Crowd World :=
  ⟨List.replicate count .arriving, .start readiness world⟩

/-- The caller of a number moves, if it can. -/
def step (provider : Provider World) (family : Family) (c : Crowd World) (index : Nat) :
    Option (Crowd World) := do
  let caller ← c.callers[index]?
  let (next, shared) ← caller.move provider family c.shared
  return ⟨c.callers.set index next, shared⟩

/-- Callers move in a given order; nothing comes of an order in which one of them cannot move. -/
def run (provider : Provider World) (family : Family) (c : Crowd World) (order : List Nat) :
    Option (Crowd World) := order.foldlM (step provider family) c

/-- Every caller is done. -/
def isDone (c : Crowd World) : Bool :=
  c.callers.all fun
    | .done _ => true
    | _ => false

/-- The verdicts of the callers that are done. -/
def verdicts (c : Crowd World) : List Verdict :=
  c.callers.filterMap fun
    | .done verdict => some verdict
    | _ => none

end Crowd

end GpuListing
