import GpuListing.Target
import GpuListing.Text.Hex

/-! # Decoders

A decoder reads the instruction at the start of some bytes. A factory makes one for a processor of a machine
model. -/

namespace GpuListing

/-- An instruction: its text, and the number of octets it takes. -/
structure Decoded where
  text : String
  length : Nat
  deriving DecidableEq

/-- Reads the instruction at the start of bytes that lie at an address, if they begin with one. -/
abbrev Decoder := UInt64 → Bytes → Option Decoded

/-- Makes a decoder for a processor of a machine model. -/
abbrev Factory := MachineModel → String → Decoder

namespace Decoder

/-- A 32-bit word as a data directive. -/
def wordText (word : Nat) : String := ".long 0x" ++ String.ofList (Text.hexFixed 8 word)

/-- Takes four octets as one little-endian word. -/
def rawWords : Decoder := fun _ bytes =>
  if 4 ≤ bytes.length then some ⟨wordText (bytes.numberAt 0 4), 4⟩ else none

/-- Lists raw words for every processor. -/
def rawWordFactory : Factory := fun _ _ => rawWords

end Decoder

end GpuListing
