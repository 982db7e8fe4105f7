import GpuListing.Registry

/-! # Sessions

A session is a decoder bound to one processor of a family whose decoder is registered. Starting one
registers nothing: it looks up the family of the triple, its machine model and its decoder factory. -/

namespace GpuListing

/-- Why no session starts. -/
inductive SessionError where
  /-- No target info accepts the triple. -/
  | unknownTriple (triple : String)
  /-- The stage is not registered for the family. -/
  | notReady (family : Family) (stage : Stage)
  /-- The machine model does not know the processor. -/
  | unknownProcessor (family : Family) (cpu : String)
  deriving DecidableEq

/-- The message for people. -/
def SessionError.message : SessionError → String
  | unknownTriple triple => "no registered target accepts triple " ++ Text.quoted triple
  | notReady family stage =>
    family.name ++ " is not ready to decode: " ++ stage.name ++ " stage is not active"
  | unknownProcessor family cpu => family.name ++ " has no processor named " ++ Text.quoted cpu

/-- A decoder bound to a processor. -/
structure Session where
  family : Family
  cpu : String
  model : MachineModel
  decoder : Decoder

namespace Session

/-- The session on a machine model; an empty processor name stands for the default one. -/
def onModel (family : Family) (model : MachineModel) (factory : Factory) (cpu : String) :
    Except SessionError Session :=
  let cpu := if cpu = "" then model.defaultProcessor else cpu
  if model.hasProcessor cpu then .ok ⟨family, cpu, model, factory model cpu⟩
  else .error (.unknownProcessor family cpu)

/-- Starts a session whose three look-ups go to three registries, one after another. -/
def startAcross (triples machines decoders : Registry) (triple cpu : String) : Except SessionError Session :=
  match triples.familyFor? triple with
  | none => .error (.unknownTriple triple)
  | some family =>
    match machines.machine? family with
    | none => .error (.notReady family .machineModel)
    | some model =>
      match decoders.factory? family with
      | none => .error (.notReady family .decoder)
      | some factory => onModel family model factory cpu

/-- Starts a session for a triple and a processor. -/
def start (r : Registry) (triple cpu : String) : Except SessionError Session := startAcross r r r triple cpu

end Session

end GpuListing
