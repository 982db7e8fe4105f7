import GpuListing.KernelCode.Registers

/-! # Packed words

A word is packed from fields that follow one another from the lowest bit up. `field_pack` finds a field of a
packed word again, `parts_pack` all of them, and `pack_parts` packs the parts of a number to what the number holds
below their end. The registers of a kernel are packed in the order in which their fields are declared, with the bits
that have no meaning zero. -/

namespace GpuListing

/-- A field of a packed word: the number of its bits, and their value. -/
structure BitField where
  width : Nat
  value : Nat
  deriving DecidableEq

namespace BitField

/-- The value fits into the bits. -/
def Fits (f : BitField) : Prop := f.value < Nat.pow 2 f.width

/-- The number of bits of consecutive fields. -/
def total : List BitField → Nat
  | [] => 0
  | f :: rest => f.width + total rest

/-- The number that consecutive fields make up, the first one in the lowest bits. -/
def pack : List BitField → Nat
  | [] => 0
  | f :: rest => f.value + Nat.pow 2 f.width * pack rest

/-- Consecutive fields of a number, of the given widths. -/
def parts : (widths : List Nat) → Nat → List BitField
  | [], _ => []
  | width :: rest, n => ⟨width, n % Nat.pow 2 width⟩ :: parts rest (n / Nat.pow 2 width)

/-- A field that is on or off. -/
def ofFlag (b : Bool) : BitField := ⟨1, b.toNat⟩

/-- A field that holds bits. -/
def ofBits {n : Nat} (bits : BitVec n) : BitField := ⟨n, bits.toNat⟩

/-- Bits without a meaning. -/
def unused (width : Nat) : BitField := ⟨width, 0⟩

/-- The field of a number at a position. -/
def cut (n start width : Nat) : BitField := ⟨width, n / Nat.pow 2 start % Nat.pow 2 width⟩

theorem total_append (before after : List BitField) : total (before ++ after) = total before + total after := by
  induction before with
  | nil => exact (Nat.zero_add _).symm
  | cons f rest ih => rw [List.cons_append, total, total, ih, Nat.add_assoc]

theorem ofFlag_inj {a b : Bool} : ofFlag a = ofFlag b ↔ a = b := by cases a <;> cases b <;> decide

theorem ofBits_inj {n : Nat} {a b : BitVec n} : ofBits a = ofBits b ↔ a = b := by simp [ofBits, BitVec.toNat_inj]

theorem ofFlag_getLsbD {n : Nat} (word : BitVec n) (i : Nat) : ofFlag (word.getLsbD i) = cut word.toNat i 1 := by
  simp [ofFlag, cut, BitVec.getLsbD, Nat.toNat_testBit]

theorem ofBits_bitsOf {n : Nat} (word : BitVec n) (start width : Nat) :
    ofBits (bitsOf word start width) = cut word.toNat start width := by
  rw [ofBits, toNat_bitsOf, cut]

theorem unused_of_bitsOf {n : Nat} {word : BitVec n} {start width : Nat} (h : bitsOf word start width = 0) :
    unused width = cut word.toNat start width := by
  rw [← ofBits_bitsOf, h]
  simp [unused, ofBits]

theorem fits_ofFlag (b : Bool) : (ofFlag b).Fits := by cases b <;> simp [Fits, ofFlag]

theorem fits_ofBits {n : Nat} (bits : BitVec n) : (ofBits bits).Fits := bits.isLt

theorem fits_unused (width : Nat) : (unused width).Fits := Nat.two_pow_pos width

/-- Fields that fit make up a number below their end. -/
theorem pack_lt {fields : List BitField} (h : ∀ f ∈ fields, f.Fits) : pack fields < Nat.pow 2 (total fields) := by
  induction fields with
  | nil => exact Nat.one_pos
  | cons f rest ih =>
    have hf : f.value < Nat.pow 2 f.width := h f List.mem_cons_self
    have hrest := ih fun g hg => h g (List.mem_cons_of_mem f hg)
    calc
      pack (f :: rest) < Nat.pow 2 f.width + Nat.pow 2 f.width * pack rest := Nat.add_lt_add_right hf _
      _ = Nat.pow 2 f.width * (pack rest + 1) := by rw [Nat.mul_succ, Nat.add_comm]
      _ ≤ Nat.pow 2 f.width * Nat.pow 2 (total rest) := Nat.mul_le_mul_left _ hrest
      _ = Nat.pow 2 (total (f :: rest)) := (Nat.pow_add 2 f.width (total rest)).symm

/-- What lies above some fields are the fields after them. -/
theorem pack_append_div {before : List BitField} (after : List BitField) (h : ∀ f ∈ before, f.Fits) :
    pack (before ++ after) / Nat.pow 2 (total before) = pack after := by
  induction before with
  | nil => simp [total]
  | cons f rest ih =>
    have hf : f.value < 2 ^ f.width := h f List.mem_cons_self
    have ih := ih fun g hg => h g (List.mem_cons_of_mem f hg)
    rw [List.cons_append, pack, total, Nat.pow_eq, Nat.pow_eq, Nat.pow_add, ← Nat.div_div_eq_div_mul,
      Nat.add_mul_div_left _ _ (Nat.two_pow_pos f.width), Nat.div_eq_of_lt hf, Nat.zero_add, ← Nat.pow_eq, ih]

/-- A field of a packed word is found again at its place. -/
theorem field_pack {before : List BitField} {f : BitField} (after : List BitField) (h : ∀ g ∈ before, g.Fits)
    (hf : f.Fits) : pack (before ++ f :: after) / Nat.pow 2 (total before) % Nat.pow 2 f.width = f.value := by
  rw [pack_append_div (f :: after) h, pack, Nat.add_mul_mod_self_left, Nat.mod_eq_of_lt hf]

/-- The parts of a number make up what it holds below their end. -/
theorem pack_parts (widths : List Nat) (n : Nat) :
    pack (parts widths n) = n % Nat.pow 2 (total (parts widths n)) := by
  induction widths generalizing n with
  | nil => simp [parts, pack, total, Nat.mod_one]
  | cons width rest ih =>
    simp only [parts, pack, total, ih, Nat.pow_eq, Nat.pow_add, Nat.mod_mul]

/-- The fields of a packed word are its parts. -/
theorem parts_pack {fields : List BitField} (h : ∀ f ∈ fields, f.Fits) :
    parts (fields.map width) (pack fields) = fields := by
  induction fields with
  | nil => rfl
  | cons f rest ih =>
    have hf : f.Fits := h f List.mem_cons_self
    have hrest := ih fun g hg => h g (List.mem_cons_of_mem f hg)
    have hone : ∀ g ∈ [f], g.Fits := List.forall_mem_singleton.2 hf
    have habove : pack (f :: rest) / Nat.pow 2 f.width = pack rest := pack_append_div rest hone
    rw [List.map_cons, parts, habove, hrest, pack, Nat.add_mul_mod_self_left, Nat.mod_eq_of_lt hf]

theorem parts_nil (n : Nat) : parts [] n = [] := rfl

theorem parts_eq_div (widths : List Nat) (n : Nat) : parts widths n = parts widths (n / Nat.pow 2 0) := by
  rw [Nat.pow_eq, Nat.pow_zero, Nat.div_one]

/-- The parts of a number from a position up. -/
theorem parts_cons_div (n start width : Nat) (rest : List Nat) :
    parts (width :: rest) (n / Nat.pow 2 start) = cut n start width :: parts rest (n / Nat.pow 2 (start + width)) := by
  simp only [parts, cut, Nat.pow_eq, Nat.pow_add, Nat.div_div_eq_div_mul]

end BitField

/-- The two bits of the field; the highest value is not used. -/
def WorkItemId.bits : WorkItemId → BitVec 2
  | x => 0
  | xy => 1
  | xyz => 2

/-- The two bits of the field. -/
def RoundMode.bits : RoundMode → BitVec 2
  | nearEven => 0
  | plusInfinity => 1
  | minusInfinity => 2
  | zero => 3

/-- The two bits of the field. -/
def DenormMode.bits : DenormMode → BitVec 2
  | flushSrcDst => 0
  | flushDst => 1
  | flushSrc => 2
  | flushNone => 3

theorem WorkItemId.ofBits_bits (w : WorkItemId) : ofBits w.bits = w := by cases w <;> rfl

theorem RoundMode.ofBits_bits (m : RoundMode) : ofBits m.bits = m := by cases m <;> rfl

theorem DenormMode.ofBits_bits (m : DenormMode) : ofBits m.bits = m := by cases m <;> rfl

theorem WorkItemId.bits_ofBits {bits : BitVec 2} : bits ≠ 3 → (ofBits bits).bits = bits := by revert bits; decide

theorem RoundMode.bits_ofBits (bits : BitVec 2) : (ofBits bits).bits = bits := by revert bits; decide

theorem DenormMode.bits_ofBits (bits : BitVec 2) : (ofBits bits).bits = bits := by revert bits; decide

theorem WorkItemId.bits_inj {w v : WorkItemId} : w.bits = v.bits ↔ w = v :=
  (Function.LeftInverse.injective ofBits_bits).eq_iff

theorem RoundMode.bits_inj {m l : RoundMode} : m.bits = l.bits ↔ m = l :=
  (Function.LeftInverse.injective ofBits_bits).eq_iff

theorem DenormMode.bits_inj {m l : DenormMode} : m.bits = l.bits ↔ m = l :=
  (Function.LeftInverse.injective ofBits_bits).eq_iff

open BitField in
/-- The fields of the low register, from its lowest bit up. -/
def PgmResources.lowFields (p : PgmResources) : List BitField :=
  [ofBits p.granulatedWorkitemVgprCount, ofBits p.granulatedWavefrontSgprCount, ofBits p.priority,
   ofBits p.floatRoundMode32.bits, ofBits p.floatRoundMode16And64.bits,
   ofBits p.floatDenormMode32.bits, ofBits p.floatDenormMode16And64.bits,
   ofFlag p.privileged, ofFlag p.enableDx10Clamp, ofFlag p.debugMode, ofFlag p.enableIeeeMode,
   ofFlag p.bulky, ofFlag p.cdbgUser, ofFlag p.fp16Overflow]

open BitField in
/-- The fields of the high register, from its lowest bit up. -/
def PgmResources.highFields (p : PgmResources) : List BitField :=
  [ofFlag p.enableSgprPrivateSegmentWavefrontOffset, ofBits p.userSgprCount, ofFlag p.enableTrapHandler,
   ofFlag p.enableSgprWorkgroupIdX, ofFlag p.enableSgprWorkgroupIdY, ofFlag p.enableSgprWorkgroupIdZ,
   ofFlag p.enableSgprWorkgroupInfo, ofBits p.enableVgprWorkitemId.bits,
   ofFlag p.enableExceptionAddressWatch, ofFlag p.enableExceptionMemory, ofBits p.granulatedLdsSize,
   ofFlag p.enableExceptionFpInvalidOperation, ofFlag p.enableExceptionFpDenormalSource,
   ofFlag p.enableExceptionFpDivisionByZero, ofFlag p.enableExceptionFpOverflow,
   ofFlag p.enableExceptionFpUnderflow, ofFlag p.enableExceptionFpInexact,
   ofFlag p.enableExceptionIntDivideByZero]

/-- The word that holds both registers. -/
def PgmResources.encode (p : PgmResources) : BitVec 64 :=
  BitVec.ofNat 64 (BitField.pack (p.lowFields ++ .unused 5 :: p.highFields))

open BitField in
/-- The fields of the code properties, from the lowest bit up. -/
def CodeProperties.fields (p : CodeProperties) : List BitField :=
  [ofFlag p.enableSgprPrivateSegmentBuffer, ofFlag p.enableSgprDispatchPtr, ofFlag p.enableSgprQueuePtr,
   ofFlag p.enableSgprKernargSegmentPtr, ofFlag p.enableSgprDispatchId, ofFlag p.enableSgprFlatScratchInit,
   ofFlag p.enableSgprPrivateSegmentSize, ofFlag p.enableSgprGridWorkgroupCountX,
   ofFlag p.enableSgprGridWorkgroupCountY, ofFlag p.enableSgprGridWorkgroupCountZ, unused 6,
   ofFlag p.enableOrderedAppendGds, ofBits p.privateElementSize, ofFlag p.isPtr64,
   ofFlag p.isDynamicCallstack, ofFlag p.isDebugSupported, ofFlag p.isXnackSupported]

/-- The word that holds the code properties. -/
def CodeProperties.encode (p : CodeProperties) : BitVec 32 := BitVec.ofNat 32 (BitField.pack p.fields)

/-- The low register ends at its 27th bit. -/
theorem PgmResources.total_lowFields (p : PgmResources) : BitField.total p.lowFields = 27 := by
  simp [lowFields, BitField.total, BitField.ofBits, BitField.ofFlag]

/-- The high register ends at its 31st bit. -/
theorem PgmResources.total_highFields (p : PgmResources) : BitField.total p.highFields = 31 := by
  simp [highFields, BitField.total, BitField.ofBits, BitField.ofFlag]

/-- Both registers end at the 63rd bit of their word. -/
theorem PgmResources.total_fields (p : PgmResources) :
    BitField.total (p.lowFields ++ .unused 5 :: p.highFields) = 63 := by
  rw [BitField.total_append, BitField.total, total_lowFields, total_highFields]
  rfl

/-- The code properties end at the 23rd bit. -/
theorem CodeProperties.total_fields (p : CodeProperties) : BitField.total p.fields = 23 := by
  simp [fields, BitField.total, BitField.ofBits, BitField.ofFlag, BitField.unused]

/-! ### Fields of machine words -/

/-- Bits of a machine word from a position up, by a shift and a mask. -/
def masked (word : UInt64) (start width : Nat) : UInt64 := word >>> start.toUInt64 &&& (1 <<< width.toUInt64) - 1

/-- The numbers among the program resources, in the words in which they are kept. -/
structure PgmResources.Numbers where
  granulatedWorkitemVgprCount : UInt8
  granulatedWavefrontSgprCount : UInt8
  priority : UInt8
  userSgprCount : UInt8
  granulatedLdsSize : UInt16

/-- The numbers of a machine word that holds both registers. -/
def PgmResources.Numbers.ofWord (word : UInt64) : Numbers where
  granulatedWorkitemVgprCount := (masked word 0 6).toUInt8
  granulatedWavefrontSgprCount := (masked word 6 4).toUInt8
  priority := (masked word 10 2).toUInt8
  userSgprCount := (masked word 33 5).toUInt8
  granulatedLdsSize := (masked word 47 9).toUInt16

/-- The number among the code properties of a machine word, in the octet in which it is kept. -/
def CodeProperties.elementSizeOctet (word : UInt32) : UInt8 := (masked word.toUInt64 17 2).toUInt8

end GpuListing
