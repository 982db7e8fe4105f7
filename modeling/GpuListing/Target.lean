import GpuListing.Family
import GpuListing.Text.Record

/-! # Targets

What is known of a family before any decoder: how it is called, which triples select it, which processors it
has, and how long its instructions are. -/

namespace GpuListing

/-- What an instruction set is called, and which triples select it. -/
structure TargetInfo where
  family : Family
  name : String
  description : String
  triples : List String
  deriving DecidableEq

/-- The processors of a family, and the lengths of its instructions in octets. -/
structure MachineModel where
  family : Family
  processors : List String
  defaultProcessor : String
  minLength : Nat
  maxLength : Nat
  alignment : Nat
  deriving DecidableEq

namespace TargetInfo

/-- A triple selects the target. -/
def accepts (info : TargetInfo) (triple : String) : Bool := info.triples.contains triple

/-- The info as a record. -/
def record (info : TargetInfo) : Text.Record where
  name := "TargetInfo"
  fields := [("family", .text info.family.shown), ("name", .quotedText info.name),
    ("description", .quotedText info.description), ("triples", .quotedList info.triples)]

end TargetInfo

namespace MachineModel

/-- The model knows the processor. -/
def hasProcessor (model : MachineModel) (cpu : String) : Bool := model.processors.contains cpu

/-- The length of the shortest instruction, at least one octet. -/
def chunk (model : MachineModel) : Nat := max model.minLength 1

/-- The model as a record. -/
def record (model : MachineModel) : Text.Record where
  name := "MachineModel"
  fields := [("family", .text model.family.shown), ("processors", .quotedList model.processors),
    ("default_processor", .quotedText model.defaultProcessor), ("min_insn_len", .number model.minLength),
    ("max_insn_len", .number model.maxLength), ("insn_align", .number model.alignment)]

theorem chunk_pos (model : MachineModel) : 0 < model.chunk := by unfold chunk; omega

end MachineModel

end GpuListing
