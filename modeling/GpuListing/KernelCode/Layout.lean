import GpuListing.KernelCode.Header

/-! # Kernel code headers as octets

How a header lies in front of machine code: its fields in order, each little-endian and in two's complement,
with the octets between and after them that hold no field. -/

namespace GpuListing

/-- The octets of a header that hold no field. -/
structure HeaderGaps where
  /-- After the size of the prefetched code. -/
  afterPrefetch : Bytes
  /-- After the call convention. -/
  afterConvention : Bytes
  /-- The control directives at the end. -/
  directives : Bytes
  length_afterPrefetch : afterPrefetch.length = 8
  length_afterConvention : afterConvention.length = 12
  length_directives : directives.length = 128

theorem length_slice_of_size_le {code : Bytes} {start length : Nat} (h : KernelHeader.size ≤ code.length)
    (hend : start + length ≤ KernelHeader.size) : (code.slice start length).length = length := by
  simp only [Bytes.slice, List.length_take, List.length_drop]
  omega

/-- The gaps in front of machine code. -/
def HeaderGaps.ofCode (code : Bytes) (h : KernelHeader.size ≤ code.length) : HeaderGaps where
  afterPrefetch := code.slice 40 8
  afterConvention := code.slice 108 12
  directives := code.slice 128 128
  length_afterPrefetch := length_slice_of_size_le h (by decide)
  length_afterConvention := length_slice_of_size_le h (by decide)
  length_directives := length_slice_of_size_le h (by decide)

namespace KernelHeader

/-- The fields and the gaps of a header, each as octets. -/
def pieces (h : KernelHeader) (gaps : HeaderGaps) : List Bytes := [
  .digits 4 h.codeVersionMajor.toNat, .digits 4 h.codeVersionMinor.toNat,
  .digits 2 h.machineKind.toNat, .digits 2 h.machineVersionMajor.toNat,
  .digits 2 h.machineVersionMinor.toNat, .digits 2 h.machineVersionStepping.toNat,
  .digits 8 h.codeEntryOffset.toUInt64.toNat, .digits 8 h.codePrefetchOffset.toUInt64.toNat,
  .digits 8 h.codePrefetchSize.toNat, gaps.afterPrefetch, .digits 8 h.pgmResourceRegisters.toNat,
  .digits 4 h.codeProperties.toNat, .digits 4 h.workitemPrivateSegmentSize.toNat,
  .digits 4 h.workgroupGroupSegmentSize.toNat, .digits 4 h.gdsSegmentSize.toNat,
  .digits 8 h.kernargSegmentSize.toNat, .digits 4 h.workgroupFbarrierCount.toNat,
  .digits 2 h.wavefrontSgprCount.toNat, .digits 2 h.workitemVgprCount.toNat,
  .digits 2 h.reservedVgprFirst.toNat, .digits 2 h.reservedVgprCount.toNat,
  .digits 2 h.reservedSgprFirst.toNat, .digits 2 h.reservedSgprCount.toNat,
  .digits 2 h.debugWavefrontPrivateSegmentOffsetSgpr.toNat, .digits 2 h.debugPrivateSegmentBufferSgpr.toNat,
  .digits 1 h.kernargSegmentAlignment.toNat, .digits 1 h.groupSegmentAlignment.toNat,
  .digits 1 h.privateSegmentAlignment.toNat, .digits 1 h.wavefrontSize.toNat,
  .digits 4 h.callConvention.toUInt32.toNat, gaps.afterConvention,
  .digits 8 h.runtimeLoaderKernelSymbol.toNat, gaps.directives]

/-- The octets of a header. -/
def octets (h : KernelHeader) (gaps : HeaderGaps) : Bytes := (h.pieces gaps).flatten

theorem length_octets (h : KernelHeader) (gaps : HeaderGaps) : (h.octets gaps).length = size := by
  simp [octets, pieces, size, gaps.length_afterPrefetch, gaps.length_afterConvention, gaps.length_directives]

end KernelHeader

end GpuListing
