/-! # Stages

Decoding for a family comes up in three stages, each on top of the one before. Nothing leads back. -/

namespace GpuListing

/-- A layer of what decoding needs, in the order in which the layers come up. -/
inductive Stage where
  /-- What the instruction set is called and which triples select it. -/
  | metadata
  /-- The processors and the lengths of instructions. -/
  | machineModel
  /-- The decoder. -/
  | decoder
  deriving DecidableEq

namespace Stage

/-- All stages, in order. -/
def all : List Stage := [metadata, machineModel, decoder]

/-- The name for people. -/
def name : Stage → String
  | metadata => "metadata"
  | machineModel => "machine-model"
  | decoder => "decoder"

/-- The stage that comes directly before. -/
def prerequisite? : Stage → Option Stage
  | metadata => none
  | machineModel => some metadata
  | decoder => some machineModel

end Stage

/-- How far a family has come. -/
inductive Phase where
  | uninitialized
  | metadataActive
  | machineModelActive
  | decoderActive
  deriving DecidableEq

namespace Phase

/-- The name for people. -/
def name : Phase → String
  | uninitialized => "Uninitialized"
  | metadataActive => "MetadataActive"
  | machineModelActive => "MachineModelActive"
  | decoderActive => "DecoderActive"

/-- The number of stages behind a phase. -/
def rank : Phase → Nat
  | uninitialized => 0
  | metadataActive => 1
  | machineModelActive => 2
  | decoderActive => 3

end Phase

/-- Which stages of a family are active. -/
structure Flags where
  metadata : Bool
  machineModel : Bool
  decoder : Bool
  deriving DecidableEq

namespace Flags

/-- No stage is active. -/
def none : Flags := ⟨false, false, false⟩

/-- The stage is active. -/
def isActive (flags : Flags) : Stage → Bool
  | .metadata => flags.metadata
  | .machineModel => flags.machineModel
  | .decoder => flags.decoder

/-- The flags with one more stage active. -/
def activate (flags : Flags) : Stage → Flags
  | .metadata => { flags with metadata := true }
  | .machineModel => { flags with machineModel := true }
  | .decoder => { flags with decoder := true }

/-- Every stage is active. -/
def isReady (flags : Flags) : Bool := flags.metadata && flags.machineModel && flags.decoder

/-- The active stages, in order. -/
def active (flags : Flags) : List Stage := Stage.all.filter flags.isActive

/-- The first stage that is not active. -/
def nextPending? (flags : Flags) : Option Stage := Stage.all.find? fun stage => !flags.isActive stage

/-- No stage is active without the one before it. -/
def isOrdered (flags : Flags) : Bool :=
  (!flags.decoder || flags.machineModel) && (!flags.machineModel || flags.metadata)

/-- How far the family has come: stages count up to the first one that is not active. -/
def phase (flags : Flags) : Phase :=
  if !flags.metadata then .uninitialized
  else if !flags.machineModel then .metadataActive
  else if !flags.decoder then .machineModelActive
  else .decoderActive

@[simp] theorem isActive_none (stage : Stage) : none.isActive stage = false := by cases stage <;> rfl

theorem isActive_activate (flags : Flags) (stage other : Stage) :
    (flags.activate stage).isActive other = (decide (stage = other) || flags.isActive other) := by
  cases stage <;> cases other <;> simp [activate, isActive]

theorem isReady_iff (flags : Flags) : flags.isReady = true ↔ ∀ stage, flags.isActive stage = true := by
  constructor
  · intro h stage
    simp only [isReady, Bool.and_eq_true] at h
    cases stage <;> simp [isActive, h]
  · intro h
    have h₁ := h .metadata
    have h₂ := h .machineModel
    have h₃ := h .decoder
    simp only [isActive] at h₁ h₂ h₃
    simp [isReady, h₁, h₂, h₃]

end Flags

end GpuListing
