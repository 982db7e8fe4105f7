import GpuListing.Capability.Provider
import GpuListing.Decoder.Basic
import GpuListing.Table

/-! # Registries

A registry keeps, for each family, what the three stages have registered. Nothing is ever removed or
replaced: registering what is there does nothing. A stage is refused as long as the one before it is not
registered, and target info is refused when another family has one of its triples. -/

namespace GpuListing

/-- What is registered for one family. -/
structure Entry where
  info? : Option TargetInfo := none
  machine? : Option MachineModel := none
  factory? : Option Factory := none

/-- What is registered, by family. -/
structure Registry where
  entries : Table Family Entry

namespace Registry

/-- Nothing is registered. -/
def empty : Registry := ⟨.empty⟩

/-- What is registered for a family; nothing if it is not entered. -/
def entry (r : Registry) (family : Family) : Entry := (r.entries.get? family).getD {}

/-- The registry with a family's entry. -/
def put (r : Registry) (family : Family) (entry : Entry) : Registry := ⟨r.entries.set family entry⟩

/-! ### Look-ups -/

/-- The target info of a family. -/
def info? (r : Registry) (family : Family) : Option TargetInfo := (r.entry family).info?

/-- The machine model of a family. -/
def machine? (r : Registry) (family : Family) : Option MachineModel := (r.entry family).machine?

/-- The decoder factory of a family. -/
def factory? (r : Registry) (family : Family) : Option Factory := (r.entry family).factory?

/-- The stage is registered for the family. -/
def isRegistered (r : Registry) (family : Family) : Stage → Bool
  | .metadata => (r.info? family).isSome
  | .machineModel => (r.machine? family).isSome
  | .decoder => (r.factory? family).isSome

/-- The target infos of all families. -/
def infos (r : Registry) : List TargetInfo := r.entries.values.filterMap Entry.info?

/-- The family whose target info accepts the triple. -/
def familyFor? (r : Registry) (triple : String) : Option Family :=
  (r.infos.find? fun info => info.accepts triple).map TargetInfo.family

/-- The families with target info, in order. -/
def families (r : Registry) : List Family :=
  Family.sort (r.entries.keys.filter fun family => (r.info? family).isSome)

/-- The registry as a record. -/
def record (r : Registry) : Text.Record where
  name := "TargetRegistry"
  fields := [("families", .text (Family.shownList r.families))]

/-! ### Registrations -/

/-- The first triple of an info that another info accepts, with the family that has it. -/
def clash? (info other : TargetInfo) : Option (String × Family) :=
  (info.triples.find? other.accepts).map fun triple => (triple, other.family)

/-- The infos of the other families. -/
def rivals (r : Registry) (family : Family) : List TargetInfo :=
  (r.entries.entries.filter fun entry => entry.1 ≠ family).filterMap fun entry => entry.2.info?

/-- Registers target info under the family it names. -/
def registerInfo (r : Registry) (info : TargetInfo) : Except ActivationError Registry :=
  match (r.rivals info.family).findSome? (clash? info) with
  | some (triple, owner) => .error (.duplicateTriple triple owner)
  | none =>
    let entry := r.entry info.family
    match entry.info? with
    | some _ => .ok r
    | none => .ok (r.put info.family { entry with info? := some info })

/-- Registers a machine model under the family it names. -/
def registerMachine (r : Registry) (model : MachineModel) : Except ActivationError Registry :=
  let entry := r.entry model.family
  match entry.info?, entry.machine? with
  | none, _ => .error (.missingPrerequisite .metadata)
  | some _, some _ => .ok r
  | some _, none => .ok (r.put model.family { entry with machine? := some model })

/-- Registers a decoder factory under a family. -/
def registerDecoder (r : Registry) (family : Family) (factory : Factory) : Except ActivationError Registry :=
  let entry := r.entry family
  match entry.machine?, entry.factory? with
  | none, _ => .error (.missingPrerequisite .machineModel)
  | some _, some _ => .ok r
  | some _, none => .ok (r.put family { entry with factory? := some factory })

/-- Something to register. -/
inductive Registration where
  | info (info : TargetInfo)
  | machine (model : MachineModel)
  | decoder (family : Family) (factory : Factory)

namespace Registration

/-- The family for which something is registered. -/
def family : Registration → Family
  | .info target => target.family
  | .machine model => model.family
  | .decoder owner _ => owner

/-- The stage that is registered. -/
def stage : Registration → Stage
  | .info _ => .metadata
  | .machine _ => .machineModel
  | .decoder .. => .decoder

end Registration

/-- Registers something. -/
def register (r : Registry) : Registration → Except ActivationError Registry
  | .info info => r.registerInfo info
  | .machine model => r.registerMachine model
  | .decoder family factory => r.registerDecoder family factory

/-- The outcome of a registration, and the registry it leaves: the same one where it is refused. -/
def attempt (r : Registry) (registration : Registration) : Outcome × Registry :=
  match r.register registration with
  | .ok next => (.ok, next)
  | .error reason => (.refused reason, r)

end Registry

end GpuListing
