import GpuListing.Bundle
import GpuListing.Registry

/-! # Toolkits

A toolkit is the bundles of a build. Its primitives register the parts of a bundle: the target info and the
machine model under the families that they name, the decoder under the family asked for. -/

namespace GpuListing

/-- The bundles of a build, by family. -/
structure Toolkit where
  bundles : Table Family Bundle

namespace Toolkit

/-- The toolkit without bundles. -/
def empty : Toolkit := ⟨.empty⟩

/-- The toolkit with a bundle, which takes the place of an earlier one for its family. -/
def addBundle (t : Toolkit) (bundle : Bundle) : Toolkit := ⟨t.bundles.set bundle.family bundle⟩

/-- The toolkit with bundles that are added one after another. -/
def ofBundles (bundles : List Bundle) : Toolkit := bundles.foldl addBundle empty

/-- The toolkit ships the family. -/
def supports (t : Toolkit) (family : Family) : Bool := t.bundles.contains family

/-- The families that the toolkit ships, in order. -/
def families (t : Toolkit) : List Family := Family.sort t.bundles.keys

/-- What a bundle registers at a stage when a family is asked for. -/
def registration (bundle : Bundle) (family : Family) : Stage → Registry.Registration
  | .metadata => .info bundle.info
  | .machineModel => .machine bundle.machine
  | .decoder => .decoder family bundle.factory

/-- The primitives of the toolkit; the registry is their world. -/
def provider (t : Toolkit) : Provider Registry := fun stage family registry =>
  match t.bundles.get? family with
  | none => (.refused (.unsupported family), registry)
  | some bundle => registry.attempt (registration bundle family stage)

end Toolkit

end GpuListing
