import GpuListing.Capability.Stage
import GpuListing.Family

/-! # Providers

A provider holds the primitives that activate one stage of one family. What they do beyond their answer is
the state of a world, of which nothing is assumed. A primitive succeeds, refuses with a reason, or is cut
off before it answers. -/

namespace GpuListing

/-- Why a primitive refuses. -/
inductive ActivationError where
  /-- The toolkit does not ship the family. -/
  | unsupported (family : Family)
  /-- An earlier stage is not registered. -/
  | missingPrerequisite (stage : Stage)
  /-- Another family has the triple. -/
  | duplicateTriple (triple : String) (owner : Family)
  /-- The toolkit has a reason of its own. -/
  | toolkit (text : String)
  deriving DecidableEq

/-- The message for people. -/
def ActivationError.message : ActivationError → String
  | unsupported family => "toolkit was built without support for " ++ family.name
  | missingPrerequisite stage => stage.name ++ " stage is not registered"
  | duplicateTriple triple owner =>
    "target triple " ++ triple ++ " is already registered for " ++ owner.name
  | toolkit text => text

/-- What comes of one call of a primitive. -/
inductive Outcome where
  | ok
  | refused (reason : ActivationError)
  /-- The call was cut off: it gave no answer. -/
  | aborted
  deriving DecidableEq

/-- The primitives for all stages and families, with what each call does to the world. -/
abbrev Provider (World : Type) := Stage → Family → World → Outcome × World

/-- One call of a primitive. -/
structure Call where
  stage : Stage
  family : Family
  deriving DecidableEq

end GpuListing
