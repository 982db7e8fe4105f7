import GpuListing.CodeObject.Guarded
import GpuListing.KernelCode.Header

/-! # Reading headers at positions

A cursor gives fewer octets where its octets end. Here a cursor keeps all octets and a position in them, and a
range that they do not have is a fault. -/

namespace GpuListing

namespace Guarded

/-- A reading of octets at a position, which is moved on. -/
abbrev Cursor := ReaderT Bytes (StateT Nat (Except Fault))

namespace Cursor

/-- The number in the next octets. -/
def number (width : Nat) : Cursor Nat := fun bytes position =>
  if position + width ≤ bytes.length then .ok (bytes.numberAt position width, position + width) else .error .range

/-- Leaves octets out; it is not looked at whether they are there. -/
def skip (width : Nat) : Cursor Unit := fun _ position => .ok ((), position + width)

end Cursor

end Guarded

/-- Reads the fields of a header by what reads a number of some octets and what leaves octets out. -/
def KernelHeader.readWith {m : Type → Type} [Monad m] (number : Nat → m Nat) (skip : Nat → m Unit) :
    m KernelHeader := do
  let codeVersionMajor ← UInt32.ofNat <$> number 4
  let codeVersionMinor ← UInt32.ofNat <$> number 4
  let machineKind ← UInt16.ofNat <$> number 2
  let machineVersionMajor ← UInt16.ofNat <$> number 2
  let machineVersionMinor ← UInt16.ofNat <$> number 2
  let machineVersionStepping ← UInt16.ofNat <$> number 2
  let codeEntryOffset ← UInt64.toInt64 <$> (UInt64.ofNat <$> number 8)
  let codePrefetchOffset ← UInt64.toInt64 <$> (UInt64.ofNat <$> number 8)
  let codePrefetchSize ← UInt64.ofNat <$> number 8
  skip 8
  let pgmResourceRegisters ← UInt64.ofNat <$> number 8
  let codeProperties ← UInt32.ofNat <$> number 4
  let workitemPrivateSegmentSize ← UInt32.ofNat <$> number 4
  let workgroupGroupSegmentSize ← UInt32.ofNat <$> number 4
  let gdsSegmentSize ← UInt32.ofNat <$> number 4
  let kernargSegmentSize ← UInt64.ofNat <$> number 8
  let workgroupFbarrierCount ← UInt32.ofNat <$> number 4
  let wavefrontSgprCount ← UInt16.ofNat <$> number 2
  let workitemVgprCount ← UInt16.ofNat <$> number 2
  let reservedVgprFirst ← UInt16.ofNat <$> number 2
  let reservedVgprCount ← UInt16.ofNat <$> number 2
  let reservedSgprFirst ← UInt16.ofNat <$> number 2
  let reservedSgprCount ← UInt16.ofNat <$> number 2
  let debugWavefrontPrivateSegmentOffsetSgpr ← UInt16.ofNat <$> number 2
  let debugPrivateSegmentBufferSgpr ← UInt16.ofNat <$> number 2
  let kernargSegmentAlignment ← UInt8.ofNat <$> number 1
  let groupSegmentAlignment ← UInt8.ofNat <$> number 1
  let privateSegmentAlignment ← UInt8.ofNat <$> number 1
  let wavefrontSize ← UInt8.ofNat <$> number 1
  let callConvention ← UInt32.toInt32 <$> (UInt32.ofNat <$> number 4)
  skip 12
  let runtimeLoaderKernelSymbol ← UInt64.ofNat <$> number 8
  return {
    codeVersionMajor, codeVersionMinor, machineKind, machineVersionMajor, machineVersionMinor,
    machineVersionStepping, codeEntryOffset, codePrefetchOffset, codePrefetchSize, pgmResourceRegisters,
    codeProperties, workitemPrivateSegmentSize, workgroupGroupSegmentSize, gdsSegmentSize, kernargSegmentSize,
    workgroupFbarrierCount, wavefrontSgprCount, workitemVgprCount, reservedVgprFirst, reservedVgprCount,
    reservedSgprFirst, reservedSgprCount, debugWavefrontPrivateSegmentOffsetSgpr,
    debugPrivateSegmentBufferSgpr, kernargSegmentAlignment, groupSegmentAlignment, privateSegmentAlignment,
    wavefrontSize, callConvention, runtimeLoaderKernelSymbol }

theorem KernelHeader.read_eq_readWith : read = readWith Cursor.number Cursor.skip := rfl

namespace Guarded

/-- The header in the first octets of kernel code. -/
def header (bytes : Bytes) : Guarded KernelHeader :=
  ExceptT.lift (Prod.fst <$> (KernelHeader.readWith Cursor.number Cursor.skip).run bytes 0)

/-- The octets from a position up to another one, or to the end. -/
def between (bytes : Bytes) (start stop : Nat) : Guarded Bytes :=
  if start ≤ stop ∧ stop ≤ bytes.length then pure (bytes.slice start (stop - start)) else fault .range

/-- The header of kernel code, and the machine code after it. -/
def split (code : Bytes) : Guarded (KernelHeader × Bytes) :=
  if code.length < KernelHeader.size then throw (.shortKernelCode code.length)
  else do
    let found ← header (← between code 0 KernelHeader.size)
    return (found, ← between code KernelHeader.size code.length)

end Guarded

end GpuListing
