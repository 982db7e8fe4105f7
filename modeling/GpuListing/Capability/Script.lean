import GpuListing.Capability.Provider
import GpuListing.Table

/-! # Scripts

A script lists, for a family and a stage, what the calls of that primitive come to, one after another. A
call takes the first outcome that is left, and succeeds when none is. -/

namespace GpuListing

/-- The outcomes that are left for each family and stage. -/
abbrev Script := Table (Family × Stage) (List Outcome)

namespace Script

/-- The outcomes that are left for the primitive of a family and a stage. -/
def left (script : Script) (family : Family) (stage : Stage) : List Outcome :=
  (script.get? (family, stage)).getD []

/-- The provider that follows the script. -/
def provider : Provider Script := fun stage family script =>
  match script.left family stage with
  | [] => (.ok, script)
  | outcome :: rest => (outcome, script.set (family, stage) rest)

end Script

end GpuListing
