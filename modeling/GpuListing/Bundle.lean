import GpuListing.Decoder.Basic

/-! # Bundles

What a build ships for a family is a bundle: its target info, its machine model, and a factory of decoders. -/

namespace GpuListing

/-- What a build ships for one family. -/
structure Bundle where
  info : TargetInfo
  machine : MachineModel
  factory : Factory

namespace Bundle

/-- The family under which the bundle is shipped: the one its info names. -/
def family (b : Bundle) : Family := b.info.family

/-- The bundle as a record; its factory is not shown. -/
def record (b : Bundle) : Text.Record where
  name := "TargetBundle"
  fields := [("info", .text b.info.record.inline), ("machine", .text b.machine.record.inline)]
  hasMore := true

end Bundle

end GpuListing
