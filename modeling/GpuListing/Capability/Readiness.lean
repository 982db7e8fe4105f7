import GpuListing.Capability.Provider

/-! # Readiness of one family

The readiness of a family is its active stages and a mark that all of them are. `ensureReady` brings the
pending stages up in order: an active stage is not called again, and the first one that is refused or cut
off ends the attempt. What succeeded before stays, so a later attempt goes on from there. -/

namespace GpuListing

/-- The active stages of a family, and the mark set once all are active. -/
structure Readiness where
  flags : Flags
  ready : Bool
  deriving DecidableEq

/-- The readiness of a family before any attempt. -/
def Readiness.initial : Readiness := ⟨.none, false⟩

/-- A stage that was refused, with the reason. -/
structure ActivationFailure where
  family : Family
  stage : Stage
  reason : ActivationError
  deriving DecidableEq

/-- The message for people. -/
def ActivationFailure.message (f : ActivationFailure) : String :=
  "failed to activate " ++ f.stage.name ++ " capability for " ++ f.family.name

/-- What an attempt comes to. -/
inductive Verdict where
  | ready
  | failed (failure : ActivationFailure)
  | aborted
  deriving DecidableEq

/-- What an attempt leaves: its verdict, the state of what it worked on, the world, and the calls it made. -/
structure Attempt (State World : Type) where
  verdict : Verdict
  state : State
  world : World
  calls : List Call

/-- Brings the listed stages up in order, as far as the first one that does not succeed. -/
def activatePending {World : Type} (provider : Provider World) (family : Family) :
    List Stage → Flags → World → Attempt Flags World
  | [], flags, world => ⟨.ready, flags, world, []⟩
  | stage :: rest, flags, world =>
    if flags.isActive stage then activatePending provider family rest flags world
    else
      match provider stage family world with
      | (.ok, world) =>
        let attempt := activatePending provider family rest (flags.activate stage) world
        { attempt with calls := ⟨stage, family⟩ :: attempt.calls }
      | (.refused reason, world) => ⟨.failed ⟨family, stage, reason⟩, flags, world, [⟨stage, family⟩]⟩
      | (.aborted, world) => ⟨.aborted, flags, world, [⟨stage, family⟩]⟩

/-- Brings a family up. Nothing is called once the mark is set. -/
def Readiness.ensureReady {World : Type} (provider : Provider World) (family : Family) (r : Readiness)
    (world : World) : Attempt Readiness World :=
  if r.ready then ⟨.ready, r, world, []⟩
  else
    let attempt := activatePending provider family Stage.all r.flags world
    { attempt with state := ⟨attempt.state, decide (attempt.verdict = .ready)⟩ }

end GpuListing
