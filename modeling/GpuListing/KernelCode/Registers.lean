import GpuListing.Text.Record

/-! # Packed registers

Two fields of a kernel code header are packed. The program resources hold the register `COMPUTE_PGM_RSRC1` in
the low 32 bits and `COMPUTE_PGM_RSRC2` in the high ones; the code properties are a word of their own. In each,
the fields follow one another from the lowest bit up. -/

namespace GpuListing

/-- Bits of a word from a position up. -/
def bitsOf {n : Nat} (word : BitVec n) (start width : Nat) : BitVec width := word.extractLsb' start width

section bitsOf
variable {n : Nat} {a b word : BitVec n} {start width : Nat}

theorem toNat_bitsOf (word : BitVec n) (start width : Nat) :
    (bitsOf word start width).toNat = word.toNat / Nat.pow 2 start % Nat.pow 2 width := by
  simp [bitsOf, BitVec.extractLsb'_toNat, Nat.shiftRight_eq_div_pow]

theorem bitsOf_congr (h : ∀ i, start ≤ i → i < start + width → a.getLsbD i = b.getLsbD i) :
    bitsOf a start width = bitsOf b start width := by
  apply BitVec.eq_of_getLsbD_eq
  intro i hi
  rw [bitsOf, bitsOf, BitVec.getLsbD_extractLsb', BitVec.getLsbD_extractLsb', h (start + i) (by omega) (by omega)]

theorem bitsOf_eq_zero (h : ∀ i, start ≤ i → i < start + width → word.getLsbD i = false) :
    bitsOf word start width = 0 := by
  rw [bitsOf_congr (b := 0) fun i hi hi' => (h i hi hi').trans (BitVec.getLsbD_zero ..).symm]
  exact BitVec.extractLsb'_zero

theorem bitsOf_eq_zero_of_lt (h : word.toNat < Nat.pow 2 start) : bitsOf word start width = 0 := by
  apply BitVec.eq_of_toNat_eq
  rw [toNat_bitsOf, Nat.div_eq_of_lt h, Nat.zero_mod]
  rfl

/-- A word whose highest bits are zero ends below them. -/
theorem toNat_lt_of_bitsOf (h : bitsOf word start width = 0) (hend : start + width = n) :
    word.toNat < Nat.pow 2 start := by
  have hlt : word.toNat / 2 ^ start < 2 ^ width := by
    rw [Nat.div_lt_iff_lt_mul (Nat.two_pow_pos start), Nat.mul_comm, ← Nat.pow_add, hend]
    exact word.isLt
  have hmod : word.toNat / 2 ^ start % 2 ^ width = 0 :=
    (toNat_bitsOf word start width).symm.trans (congrArg BitVec.toNat h)
  rw [Nat.mod_eq_of_lt hlt] at hmod
  exact Nat.lt_of_div_eq_zero (Nat.two_pow_pos start) hmod

/-- Two bits are three if both are set. -/
theorem bitsOf_eq_three : bitsOf word start 2 = 3 ↔ word.getLsbD start = true ∧ word.getLsbD (start + 1) = true := by
  constructor
  · intro h
    have h0 := congrArg (BitVec.getLsbD · 0) h
    have h1 := congrArg (BitVec.getLsbD · 1) h
    simpa [bitsOf, BitVec.getLsbD_extractLsb'] using And.intro h0 h1
  · rintro ⟨h0, h1⟩
    apply BitVec.eq_of_getLsbD_eq
    intro i hi
    obtain rfl | rfl : i = 0 ∨ i = 1 := by omega
    · simp [bitsOf, h0]
    · simp [bitsOf, h1]

end bitsOf

/-- Which components of the work-item id are preloaded. -/
inductive WorkItemId where
  | x
  | xy
  | xyz
  deriving DecidableEq

namespace WorkItemId

/-- The components for the two bits of the field; the highest value means all of them too. -/
def ofBits : BitVec 2 → WorkItemId
  | 0 => x
  | 1 => xy
  | _ => xyz

/-- The name for people. -/
def name : WorkItemId → String
  | x => "X"
  | xy => "Xy"
  | xyz => "Xyz"

end WorkItemId

/-- How results of floating-point operations are rounded. -/
inductive RoundMode where
  | nearEven
  | plusInfinity
  | minusInfinity
  | zero
  deriving DecidableEq

namespace RoundMode

/-- The mode for the two bits of the field. -/
def ofBits : BitVec 2 → RoundMode
  | 0 => nearEven
  | 1 => plusInfinity
  | 2 => minusInfinity
  | _ => zero

/-- The name for people. -/
def name : RoundMode → String
  | nearEven => "NearEven"
  | plusInfinity => "PlusInfinity"
  | minusInfinity => "MinusInfinity"
  | zero => "Zero"

end RoundMode

/-- Which subnormal operands and results of floating-point operations are flushed to zero. -/
inductive DenormMode where
  | flushSrcDst
  | flushDst
  | flushSrc
  | flushNone
  deriving DecidableEq

namespace DenormMode

/-- The mode for the two bits of the field. -/
def ofBits : BitVec 2 → DenormMode
  | 0 => flushSrcDst
  | 1 => flushDst
  | 2 => flushSrc
  | _ => flushNone

/-- The name for people. -/
def name : DenormMode → String
  | flushSrcDst => "FlushSrcDst"
  | flushDst => "FlushDst"
  | flushSrc => "FlushSrc"
  | flushNone => "FlushNone"

end DenormMode

/-! ### Program resources -/

/-- The fields of the program resource registers. -/
structure PgmResources where
  granulatedWorkitemVgprCount : BitVec 6
  granulatedWavefrontSgprCount : BitVec 4
  priority : BitVec 2
  floatRoundMode32 : RoundMode
  floatRoundMode16And64 : RoundMode
  floatDenormMode32 : DenormMode
  floatDenormMode16And64 : DenormMode
  privileged : Bool
  enableDx10Clamp : Bool
  debugMode : Bool
  enableIeeeMode : Bool
  bulky : Bool
  cdbgUser : Bool
  fp16Overflow : Bool
  enableSgprPrivateSegmentWavefrontOffset : Bool
  userSgprCount : BitVec 5
  enableTrapHandler : Bool
  enableSgprWorkgroupIdX : Bool
  enableSgprWorkgroupIdY : Bool
  enableSgprWorkgroupIdZ : Bool
  enableSgprWorkgroupInfo : Bool
  enableVgprWorkitemId : WorkItemId
  enableExceptionAddressWatch : Bool
  enableExceptionMemory : Bool
  granulatedLdsSize : BitVec 9
  enableExceptionFpInvalidOperation : Bool
  enableExceptionFpDenormalSource : Bool
  enableExceptionFpDivisionByZero : Bool
  enableExceptionFpOverflow : Bool
  enableExceptionFpUnderflow : Bool
  enableExceptionFpInexact : Bool
  enableExceptionIntDivideByZero : Bool
  deriving DecidableEq

namespace PgmResources

/-- The fields of a word that holds both registers. -/
def decode (word : BitVec 64) : PgmResources where
  granulatedWorkitemVgprCount := bitsOf word 0 6
  granulatedWavefrontSgprCount := bitsOf word 6 4
  priority := bitsOf word 10 2
  floatRoundMode32 := .ofBits (bitsOf word 12 2)
  floatRoundMode16And64 := .ofBits (bitsOf word 14 2)
  floatDenormMode32 := .ofBits (bitsOf word 16 2)
  floatDenormMode16And64 := .ofBits (bitsOf word 18 2)
  privileged := word.getLsbD 20
  enableDx10Clamp := word.getLsbD 21
  debugMode := word.getLsbD 22
  enableIeeeMode := word.getLsbD 23
  bulky := word.getLsbD 24
  cdbgUser := word.getLsbD 25
  fp16Overflow := word.getLsbD 26
  enableSgprPrivateSegmentWavefrontOffset := word.getLsbD 32
  userSgprCount := bitsOf word 33 5
  enableTrapHandler := word.getLsbD 38
  enableSgprWorkgroupIdX := word.getLsbD 39
  enableSgprWorkgroupIdY := word.getLsbD 40
  enableSgprWorkgroupIdZ := word.getLsbD 41
  enableSgprWorkgroupInfo := word.getLsbD 42
  enableVgprWorkitemId := .ofBits (bitsOf word 43 2)
  enableExceptionAddressWatch := word.getLsbD 45
  enableExceptionMemory := word.getLsbD 46
  granulatedLdsSize := bitsOf word 47 9
  enableExceptionFpInvalidOperation := word.getLsbD 56
  enableExceptionFpDenormalSource := word.getLsbD 57
  enableExceptionFpDivisionByZero := word.getLsbD 58
  enableExceptionFpOverflow := word.getLsbD 59
  enableExceptionFpUnderflow := word.getLsbD 60
  enableExceptionFpInexact := word.getLsbD 61
  enableExceptionIntDivideByZero := word.getLsbD 62

/-- The number of vector registers of a work-item: the count is in blocks of four, less one. -/
def workitemVgprs (p : PgmResources) : Nat := (p.granulatedWorkitemVgprCount.toNat + 1) * 4

/-- The resources as a record. -/
def record (p : PgmResources) : Text.Record where
  name := "PgmResources"
  fields := [
    ("granulated_workitem_vgpr_count", .number p.granulatedWorkitemVgprCount.toNat),
    ("granulated_wavefront_sgpr_count", .number p.granulatedWavefrontSgprCount.toNat),
    ("priority", .number p.priority.toNat),
    ("float_round_mode_32", .text p.floatRoundMode32.name),
    ("float_round_mode_16_64", .text p.floatRoundMode16And64.name),
    ("float_denorm_mode_32", .text p.floatDenormMode32.name),
    ("float_denorm_mode_16_64", .text p.floatDenormMode16And64.name),
    ("privileged", .flag p.privileged),
    ("enable_dx10_clamp", .flag p.enableDx10Clamp),
    ("debug_mode", .flag p.debugMode),
    ("enable_ieee_mode", .flag p.enableIeeeMode),
    ("bulky", .flag p.bulky),
    ("cdbg_user", .flag p.cdbgUser),
    ("fp16_overflow", .flag p.fp16Overflow),
    ("enable_sgpr_private_segment_wavefront_offset", .flag p.enableSgprPrivateSegmentWavefrontOffset),
    ("user_sgpr_count", .number p.userSgprCount.toNat),
    ("enable_trap_handler", .flag p.enableTrapHandler),
    ("enable_sgpr_workgroup_id_x", .flag p.enableSgprWorkgroupIdX),
    ("enable_sgpr_workgroup_id_y", .flag p.enableSgprWorkgroupIdY),
    ("enable_sgpr_workgroup_id_z", .flag p.enableSgprWorkgroupIdZ),
    ("enable_sgpr_workgroup_info", .flag p.enableSgprWorkgroupInfo),
    ("enable_vgpr_workitem_id", .text p.enableVgprWorkitemId.name),
    ("enable_exception_address_watch", .flag p.enableExceptionAddressWatch),
    ("enable_exception_memory", .flag p.enableExceptionMemory),
    ("granulated_lds_size", .number p.granulatedLdsSize.toNat),
    ("enable_exception_fp_invalid_operation", .flag p.enableExceptionFpInvalidOperation),
    ("enable_exception_fp_denormal_source", .flag p.enableExceptionFpDenormalSource),
    ("enable_exception_fp_division_by_zero", .flag p.enableExceptionFpDivisionByZero),
    ("enable_exception_fp_overflow", .flag p.enableExceptionFpOverflow),
    ("enable_exception_fp_underflow", .flag p.enableExceptionFpUnderflow),
    ("enable_exception_fp_inexact", .flag p.enableExceptionFpInexact),
    ("enable_exception_int_divide_by_zero", .flag p.enableExceptionIntDivideByZero)]

end PgmResources

/-! ### Code properties -/

/-- The fields of the code properties. -/
structure CodeProperties where
  enableSgprPrivateSegmentBuffer : Bool
  enableSgprDispatchPtr : Bool
  enableSgprQueuePtr : Bool
  enableSgprKernargSegmentPtr : Bool
  enableSgprDispatchId : Bool
  enableSgprFlatScratchInit : Bool
  enableSgprPrivateSegmentSize : Bool
  enableSgprGridWorkgroupCountX : Bool
  enableSgprGridWorkgroupCountY : Bool
  enableSgprGridWorkgroupCountZ : Bool
  enableOrderedAppendGds : Bool
  /-- The values 0, 1, 2 and 3 mean 2, 4, 8 and 16 octets. -/
  privateElementSize : BitVec 2
  isPtr64 : Bool
  isDynamicCallstack : Bool
  isDebugSupported : Bool
  isXnackSupported : Bool
  deriving DecidableEq

namespace CodeProperties

/-- The fields of a word. -/
def decode (word : BitVec 32) : CodeProperties where
  enableSgprPrivateSegmentBuffer := word.getLsbD 0
  enableSgprDispatchPtr := word.getLsbD 1
  enableSgprQueuePtr := word.getLsbD 2
  enableSgprKernargSegmentPtr := word.getLsbD 3
  enableSgprDispatchId := word.getLsbD 4
  enableSgprFlatScratchInit := word.getLsbD 5
  enableSgprPrivateSegmentSize := word.getLsbD 6
  enableSgprGridWorkgroupCountX := word.getLsbD 7
  enableSgprGridWorkgroupCountY := word.getLsbD 8
  enableSgprGridWorkgroupCountZ := word.getLsbD 9
  enableOrderedAppendGds := word.getLsbD 16
  privateElementSize := bitsOf word 17 2
  isPtr64 := word.getLsbD 19
  isDynamicCallstack := word.getLsbD 20
  isDebugSupported := word.getLsbD 21
  isXnackSupported := word.getLsbD 22

/-- The number of octets of a private element. -/
def privateElementOctets (p : CodeProperties) : Nat := Nat.pow 2 (p.privateElementSize.toNat + 1)

/-- The properties as a record. -/
def record (p : CodeProperties) : Text.Record where
  name := "CodeProperties"
  fields := [
    ("enable_sgpr_private_segment_buffer", .flag p.enableSgprPrivateSegmentBuffer),
    ("enable_sgpr_dispatch_ptr", .flag p.enableSgprDispatchPtr),
    ("enable_sgpr_queue_ptr", .flag p.enableSgprQueuePtr),
    ("enable_sgpr_kernarg_segment_ptr", .flag p.enableSgprKernargSegmentPtr),
    ("enable_sgpr_dispatch_id", .flag p.enableSgprDispatchId),
    ("enable_sgpr_flat_scratch_init", .flag p.enableSgprFlatScratchInit),
    ("enable_sgpr_private_segment_size", .flag p.enableSgprPrivateSegmentSize),
    ("enable_sgpr_grid_workgroup_count_x", .flag p.enableSgprGridWorkgroupCountX),
    ("enable_sgpr_grid_workgroup_count_y", .flag p.enableSgprGridWorkgroupCountY),
    ("enable_sgpr_grid_workgroup_count_z", .flag p.enableSgprGridWorkgroupCountZ),
    ("enable_ordered_append_gds", .flag p.enableOrderedAppendGds),
    ("private_element_size", .number p.privateElementSize.toNat),
    ("is_ptr64", .flag p.isPtr64),
    ("is_dynamic_callstack", .flag p.isDynamicCallstack),
    ("is_debug_supported", .flag p.isDebugSupported),
    ("is_xnack_supported", .flag p.isXnackSupported)]

end CodeProperties

end GpuListing
