import GpuListing.CodeObject.Basic
import GpuListing.KernelCode.Cursor
import GpuListing.Text.Record

/-! # Kernel code headers

The text section of a code object of version 2 begins with the structure `amd_kernel_code_t`: 256 octets with
the fields below in this order, a gap of eight octets after the size of the prefetched code, one of twelve
after the call convention, and 128 octets of control directives at the end. The machine code follows. -/

namespace GpuListing

/-- The fields of a kernel code header. -/
structure KernelHeader where
  codeVersionMajor : UInt32
  codeVersionMinor : UInt32
  machineKind : UInt16
  machineVersionMajor : UInt16
  machineVersionMinor : UInt16
  machineVersionStepping : UInt16
  codeEntryOffset : Int64
  codePrefetchOffset : Int64
  codePrefetchSize : UInt64
  pgmResourceRegisters : UInt64
  codeProperties : UInt32
  workitemPrivateSegmentSize : UInt32
  workgroupGroupSegmentSize : UInt32
  gdsSegmentSize : UInt32
  kernargSegmentSize : UInt64
  workgroupFbarrierCount : UInt32
  wavefrontSgprCount : UInt16
  workitemVgprCount : UInt16
  reservedVgprFirst : UInt16
  reservedVgprCount : UInt16
  reservedSgprFirst : UInt16
  reservedSgprCount : UInt16
  debugWavefrontPrivateSegmentOffsetSgpr : UInt16
  debugPrivateSegmentBufferSgpr : UInt16
  /-- The alignments and the size of wavefronts are exponents of two. -/
  kernargSegmentAlignment : UInt8
  groupSegmentAlignment : UInt8
  privateSegmentAlignment : UInt8
  wavefrontSize : UInt8
  callConvention : Int32
  runtimeLoaderKernelSymbol : UInt64
  deriving DecidableEq

namespace KernelHeader

/-- The length of a header. -/
def size : Nat := 256

open Cursor in
/-- Reads the fields of a header. -/
def read : Cursor KernelHeader := do
  let codeVersionMajor ← word32
  let codeVersionMinor ← word32
  let machineKind ← word16
  let machineVersionMajor ← word16
  let machineVersionMinor ← word16
  let machineVersionStepping ← word16
  let codeEntryOffset ← signed64
  let codePrefetchOffset ← signed64
  let codePrefetchSize ← word64
  skip 8
  let pgmResourceRegisters ← word64
  let codeProperties ← word32
  let workitemPrivateSegmentSize ← word32
  let workgroupGroupSegmentSize ← word32
  let gdsSegmentSize ← word32
  let kernargSegmentSize ← word64
  let workgroupFbarrierCount ← word32
  let wavefrontSgprCount ← word16
  let workitemVgprCount ← word16
  let reservedVgprFirst ← word16
  let reservedVgprCount ← word16
  let reservedSgprFirst ← word16
  let reservedSgprCount ← word16
  let debugWavefrontPrivateSegmentOffsetSgpr ← word16
  let debugPrivateSegmentBufferSgpr ← word16
  let kernargSegmentAlignment ← word8
  let groupSegmentAlignment ← word8
  let privateSegmentAlignment ← word8
  let wavefrontSize ← word8
  let callConvention ← signed32
  skip 12
  let runtimeLoaderKernelSymbol ← word64
  return {
    codeVersionMajor, codeVersionMinor, machineKind, machineVersionMajor, machineVersionMinor,
    machineVersionStepping, codeEntryOffset, codePrefetchOffset, codePrefetchSize, pgmResourceRegisters,
    codeProperties, workitemPrivateSegmentSize, workgroupGroupSegmentSize, gdsSegmentSize, kernargSegmentSize,
    workgroupFbarrierCount, wavefrontSgprCount, workitemVgprCount, reservedVgprFirst, reservedVgprCount,
    reservedSgprFirst, reservedSgprCount, debugWavefrontPrivateSegmentOffsetSgpr,
    debugPrivateSegmentBufferSgpr, kernargSegmentAlignment, groupSegmentAlignment, privateSegmentAlignment,
    wavefrontSize, callConvention, runtimeLoaderKernelSymbol }

/-- The header of kernel code, and the machine code after it. -/
def split (code : Bytes) : Except CodeObjectError (KernelHeader × Bytes) :=
  if code.length < size then .error (.shortKernelCode code.length)
  else .ok ((read.run (code.take size)).1, code.drop size)

/-- The number of lanes of a wavefront; zero where it does not fit into 32 bits. -/
def wavefrontLanes (h : KernelHeader) : Nat := if h.wavefrontSize < 32 then Nat.pow 2 h.wavefrontSize.toNat else 0

/-- The header as a record. -/
def record (h : KernelHeader) : Text.Record where
  name := "KernelCodeHeader"
  fields := [
    ("kernel_code_version_major", .number h.codeVersionMajor.toNat),
    ("kernel_code_version_minor", .number h.codeVersionMinor.toNat),
    ("machine_kind", .number h.machineKind.toNat),
    ("machine_version_major", .number h.machineVersionMajor.toNat),
    ("machine_version_minor", .number h.machineVersionMinor.toNat),
    ("machine_version_stepping", .number h.machineVersionStepping.toNat),
    ("kernel_code_entry_byte_offset", .number h.codeEntryOffset.toInt),
    ("kernel_code_prefetch_byte_offset", .number h.codePrefetchOffset.toInt),
    ("kernel_code_prefetch_byte_size", .number h.codePrefetchSize.toNat),
    ("compute_pgm_resource_registers", .number h.pgmResourceRegisters.toNat),
    ("code_properties", .number h.codeProperties.toNat),
    ("workitem_private_segment_byte_size", .number h.workitemPrivateSegmentSize.toNat),
    ("workgroup_group_segment_byte_size", .number h.workgroupGroupSegmentSize.toNat),
    ("gds_segment_byte_size", .number h.gdsSegmentSize.toNat),
    ("kernarg_segment_byte_size", .number h.kernargSegmentSize.toNat),
    ("workgroup_fbarrier_count", .number h.workgroupFbarrierCount.toNat),
    ("wavefront_sgpr_count", .number h.wavefrontSgprCount.toNat),
    ("workitem_vgpr_count", .number h.workitemVgprCount.toNat),
    ("reserved_vgpr_first", .number h.reservedVgprFirst.toNat),
    ("reserved_vgpr_count", .number h.reservedVgprCount.toNat),
    ("reserved_sgpr_first", .number h.reservedSgprFirst.toNat),
    ("reserved_sgpr_count", .number h.reservedSgprCount.toNat),
    ("debug_wavefront_private_segment_offset_sgpr", .number h.debugWavefrontPrivateSegmentOffsetSgpr.toNat),
    ("debug_private_segment_buffer_sgpr", .number h.debugPrivateSegmentBufferSgpr.toNat),
    ("kernarg_segment_alignment", .number h.kernargSegmentAlignment.toNat),
    ("group_segment_alignment", .number h.groupSegmentAlignment.toNat),
    ("private_segment_alignment", .number h.privateSegmentAlignment.toNat),
    ("wavefront_size", .number h.wavefrontSize.toNat),
    ("call_convention", .number h.callConvention.toInt),
    ("runtime_loader_kernel_symbol", .number h.runtimeLoaderKernelSymbol.toNat)]

end KernelHeader

end GpuListing
