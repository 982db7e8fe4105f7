import GpuListing.KernelCode.Packing

/-! # Registers and their words

Packing the fields of a register word gives the word again, without the bits that no field holds and with an id of two
for one of three, and the fields of a packed word are the ones that were packed. So two words have the same fields
exactly if they agree in the bits that some field holds, up to ids of two and three. -/

namespace GpuListing
open BitField

/-! ### Types that are packed -/

/-- How the values of a type are packed into words of some length: in fields of the same widths for all of them, from
which the value is told. -/
structure Packing (α : Type) (n : Nat) where
  fields : α → List BitField
  widths : List Nat
  total_le : ∀ a, total (fields a) ≤ n
  fits : ∀ a, ∀ f ∈ fields a, f.Fits
  widths_fields : ∀ a, (fields a).map width = widths
  eq_of_fields : ∀ {a b}, fields a = fields b → a = b

namespace Packing
variable {α : Type} {n : Nat} (packing : Packing α n)

/-- The word of a value. -/
def encode (a : α) : BitVec n := BitVec.ofNat n (pack (packing.fields a))

theorem toNat_encode (a : α) : (packing.encode a).toNat = pack (packing.fields a) := by
  have hlt : pack (packing.fields a) < 2 ^ total (packing.fields a) := pack_lt (packing.fits a)
  have hle : 2 ^ total (packing.fields a) ≤ 2 ^ n := Nat.pow_le_pow_right (by decide) (packing.total_le a)
  exact (BitVec.toNat_ofNat _ _).trans (Nat.mod_eq_of_lt (Nat.lt_of_lt_of_le hlt hle))

theorem toNat_encode_lt {a : α} {stop : Nat} (hstop : total (packing.fields a) = stop) :
    (packing.encode a).toNat < Nat.pow 2 stop := by
  rw [toNat_encode, ← hstop]
  exact pack_lt (packing.fits a)

theorem encode_inj {a b : α} (h : packing.encode a = packing.encode b) : a = b := by
  have hpack : pack (packing.fields a) = pack (packing.fields b) := by rw [← toNat_encode, ← toNat_encode, h]
  apply packing.eq_of_fields
  rw [← parts_pack (packing.fits a), ← parts_pack (packing.fits b), widths_fields, widths_fields, hpack]

/-- A field is found in a packed word at the end of the ones before it. -/
theorem bitsOf_encode {a : α} (before : List BitField) {after : List BitField} {f : BitField} {start : Nat}
    (h : packing.fields a = before ++ f :: after) (hstart : total before = start) :
    (bitsOf (packing.encode a) start f.width).toNat = f.value := by
  have hfits : ∀ g ∈ before ++ f :: after, g.Fits := h ▸ packing.fits a
  rw [toNat_bitsOf, toNat_encode, h, ← hstart]
  exact field_pack after (fun g hg => hfits g (List.mem_append_left _ hg))
    (hfits f (List.mem_append_right _ List.mem_cons_self))

/-- A word that has the fields of a value as its parts, and nothing above them, is the word of the value. -/
theorem encode_of_parts {a : α} {word : BitVec n} {stop : Nat}
    (h : packing.fields a = parts packing.widths word.toNat) (hstop : total (packing.fields a) = stop)
    (hlt : word.toNat < Nat.pow 2 stop) : packing.encode a = word := by
  apply BitVec.eq_of_toNat_eq
  rw [toNat_encode, h, pack_parts, ← h, hstop]
  exact Nat.mod_eq_of_lt hlt

end Packing

/-- A mask that is told bit by bit. -/
theorem getLsbD_of_table {n : Nat} {mask : BitVec n} {p : Nat → Bool} (h : ∀ i : Fin n, mask.getLsbD i = p i)
    (hp : ∀ i, n ≤ i → p i = false) (i : Nat) : mask.getLsbD i = p i := by
  rcases Nat.lt_or_ge i n with hi | hi
  · exact h ⟨i, hi⟩
  · rw [BitVec.getLsbD_of_ge _ _ hi, hp i hi]

/-! ### Program resources -/

namespace PgmResources

/-- The program resources as they are packed. -/
def packing : Packing PgmResources 64 where
  fields p := p.lowFields ++ .unused 5 :: p.highFields
  widths := [6, 4, 2, 2, 2, 2, 2, 1, 1, 1, 1, 1, 1, 1, 5, 1, 5, 1, 1, 1, 1, 1, 2, 1, 1, 9, 1, 1, 1, 1, 1, 1, 1]
  total_le p := p.total_fields ▸ by decide
  fits p := by simp [lowFields, highFields, fits_ofFlag, fits_ofBits, fits_unused]
  widths_fields _ := rfl
  eq_of_fields {p q} h := by
    cases p; cases q
    simpa only [lowFields, highFields, List.cons_append, List.nil_append, List.cons.injEq, ofBits_inj, ofFlag_inj,
      RoundMode.bits_inj, DenormMode.bits_inj, WorkItemId.bits_inj, and_true, true_and, mk.injEq] using h

/-- A bit of a word that some field holds. -/
def Defined (i : Nat) : Prop := i < 27 ∨ 32 ≤ i ∧ i < 63

instance (i : Nat) : Decidable (Defined i) := inferInstanceAs (Decidable (_ ∨ _))

/-- A word without the bits that no field holds, and with an id of two for one of three. -/
def canonical (word : BitVec 64) : BitVec 64 :=
  word &&& if bitsOf word 43 2 = 3 then 0x7ffff7ff07ffffff#64 else 0x7fffffff07ffffff#64

theorem getLsbD_canonical (word : BitVec 64) (i : Nat) :
    (canonical word).getLsbD i = (word.getLsbD i && decide (Defined i) && !(i == 43 && word.getLsbD 44)) := by
  have hnone {i : Nat} (h : 64 ≤ i) : decide (Defined i) = false := decide_eq_false (by unfold Defined; omega)
  have hall : (0x7fffffff07ffffff#64).getLsbD i = decide (Defined i) :=
    getLsbD_of_table (by decide) (fun _ => hnone) i
  have hbut : (0x7ffff7ff07ffffff#64).getLsbD i = (decide (Defined i) && !(i == 43)) :=
    getLsbD_of_table (p := fun i => decide (Defined i) && !(i == 43)) (by decide)
      (fun _ h => by rw [hnone h, Bool.false_and]) i
  rw [canonical, BitVec.getLsbD_and]
  by_cases hid : bitsOf word 43 2 = 3
  · rw [if_pos hid, hbut, (bitsOf_eq_three.1 hid).2, Bool.and_true, Bool.and_assoc]
  · rw [if_neg hid, hall]
    rw [bitsOf_eq_three] at hid
    grind

theorem id_canonical (word : BitVec 64) :
    bitsOf (canonical word) 43 2 = if bitsOf word 43 2 = 3 then 2 else bitsOf word 43 2 := by
  have hcut : bitsOf (canonical word) 43 2 = bitsOf word 43 2 &&& if bitsOf word 43 2 = 3 then 2 else 3 := by
    unfold canonical
    split <;> simp [bitsOf, BitVec.extractLsb'_and]
  rw [hcut]
  generalize bitsOf word 43 2 = id
  revert id
  decide

/-- A word that holds nothing but fields, and no id of three. -/
structure Plain (word : BitVec 64) : Prop where
  between : bitsOf word 27 5 = 0
  top : bitsOf word 63 1 = 0
  id : bitsOf word 43 2 ≠ 3

theorem plain_canonical (word : BitVec 64) : Plain (canonical word) := by
  have hnone {i : Nat} (h : ¬Defined i) : (canonical word).getLsbD i = false := by
    rw [getLsbD_canonical, decide_eq_false h, Bool.and_false, Bool.false_and]
  refine ⟨bitsOf_eq_zero fun i hi hi' => hnone ?_, bitsOf_eq_zero fun i hi hi' => hnone ?_, ?_⟩
  · unfold Defined
    omega
  · unfold Defined
    omega
  · rw [id_canonical]
    generalize bitsOf word 43 2 = id
    revert id
    decide

theorem plain_encode (p : PgmResources) : Plain p.encode where
  between := BitVec.eq_of_toNat_eq (packing.bitsOf_encode p.lowFields (f := .unused 5) rfl p.total_lowFields)
  top := bitsOf_eq_zero_of_lt (packing.toNat_encode_lt p.total_fields)
  id h := by
    have hid : (bitsOf p.encode 43 2).toNat = p.enableVgprWorkitemId.bits.toNat :=
      packing.bitsOf_encode (p.lowFields ++ .unused 5 :: p.highFields.take 7)
        (f := .ofBits p.enableVgprWorkitemId.bits) rfl (by simp [lowFields, highFields, total, ofBits, ofFlag, unused])
    rw [h] at hid
    revert hid
    cases p.enableVgprWorkitemId <;> decide

/-- The fields of a plain word are its parts. -/
theorem fields_decode {word : BitVec 64} (h : Plain word) :
    packing.fields (decode word) = parts packing.widths word.toNat := by
  rw [parts_eq_div]
  -- The parts are cut where the widths before them end, which is where the fields are decoded.
  simp only [packing, parts_cons_div, parts_nil, lowFields, highFields, decode, ofBits_bitsOf, ofFlag_getLsbD,
    RoundMode.bits_ofBits, DenormMode.bits_ofBits, WorkItemId.bits_ofBits h.id, unused_of_bitsOf h.between,
    List.cons_append, List.nil_append, Nat.reduceAdd]

theorem encode_decode_of_plain {word : BitVec 64} (h : Plain word) : (decode word).encode = word :=
  packing.encode_of_parts (fields_decode h) (total_fields _) (toNat_lt_of_bitsOf h.top rfl)

/-- Words that agree in the bits that some field holds, up to ids of two and three. -/
structure Alike (a b : BitVec 64) : Prop where
  bits : ∀ i, Defined i → i ≠ 43 → i ≠ 44 → a.getLsbD i = b.getLsbD i
  id : bitsOf a 43 2 = bitsOf b 43 2 ∨ 2 ≤ bitsOf a 43 2 ∧ 2 ≤ bitsOf b 43 2

theorem decode_eq_of_alike {a b : BitVec 64} (h : Alike a b) : decode a = decode b := by
  have hbits (start width : Nat) (hwidth : start + width ≤ 27 ∨ 32 ≤ start ∧ start + width ≤ 43 ∨
      45 ≤ start ∧ start + width ≤ 63) : bitsOf a start width = bitsOf b start width :=
    bitsOf_congr fun i hi hi' => h.bits i (by unfold Defined; omega) (by omega) (by omega)
  have hflag (i : Nat) (hi : Defined i ∧ i ≠ 43 ∧ i ≠ 44) : a.getLsbD i = b.getLsbD i := h.bits i hi.1 hi.2.1 hi.2.2
  have hid (x y : BitVec 2) : x = y ∨ 2 ≤ x ∧ 2 ≤ y → WorkItemId.ofBits x = WorkItemId.ofBits y := by
    revert x y
    decide
  simp (disch := decide) only [decode, hbits, hflag, hid _ _ h.id]

theorem alike_canonical (word : BitVec 64) : Alike (canonical word) word where
  bits i hi h43 _ := by
    rw [getLsbD_canonical, decide_eq_true hi, beq_false_of_ne h43, Bool.and_true, Bool.false_and, Bool.not_false,
      Bool.and_true]
  id := by
    rw [id_canonical]
    generalize bitsOf word 43 2 = id
    revert id
    decide

theorem encode_decode (word : BitVec 64) : (decode word).encode = canonical word := by
  rw [← decode_eq_of_alike (alike_canonical word), encode_decode_of_plain (plain_canonical word)]

/-- An id of three and a bit above the low register. -/
example : (decode 0x1800_0800_0041).encode = 0x1000_0000_0041 := by decide

-- What is decoded has the same word as what was packed, and no two values have one word.
theorem decode_encode (p : PgmResources) : decode p.encode = p :=
  packing.encode_inj (encode_decode_of_plain (plain_encode p))

theorem alike_of_canonical {a b : BitVec 64} (h : canonical a = canonical b) : Alike a b where
  bits i hi h43 h44 := by
    rw [← (alike_canonical a).bits i hi h43 h44, h, (alike_canonical b).bits i hi h43 h44]
  id := by
    have hid := congrArg (bitsOf · 43 2) h
    simp only [id_canonical] at hid
    revert hid
    generalize bitsOf a 43 2 = x
    generalize bitsOf b 43 2 = y
    revert x y
    decide

theorem decode_eq_iff {a b : BitVec 64} : decode a = decode b ↔ Alike a b := by
  refine ⟨fun h => alike_of_canonical ?_, decode_eq_of_alike⟩
  rw [← encode_decode, ← encode_decode, h]

end PgmResources

/-! ### Code properties -/

namespace CodeProperties

/-- The code properties as they are packed. -/
def packing : Packing CodeProperties 32 where
  fields := fields
  widths := [1, 1, 1, 1, 1, 1, 1, 1, 1, 1, 6, 1, 2, 1, 1, 1, 1]
  total_le p := p.total_fields ▸ by decide
  fits p := by simp [fields, fits_ofFlag, fits_ofBits, fits_unused]
  widths_fields _ := rfl
  eq_of_fields {p q} h := by
    cases p; cases q
    simpa only [fields, List.cons.injEq, ofBits_inj, ofFlag_inj, and_true, true_and, mk.injEq] using h

/-- A bit of a word that some field holds. -/
def Defined (i : Nat) : Prop := i < 10 ∨ 16 ≤ i ∧ i < 23

instance (i : Nat) : Decidable (Defined i) := inferInstanceAs (Decidable (_ ∨ _))

/-- A word without the bits that no field holds. -/
def canonical (word : BitVec 32) : BitVec 32 := word &&& 0x7f03ff#32

theorem getLsbD_canonical (word : BitVec 32) (i : Nat) :
    (canonical word).getLsbD i = (word.getLsbD i && decide (Defined i)) := by
  have hmask : (0x7f03ff#32).getLsbD i = decide (Defined i) :=
    getLsbD_of_table (by decide) (fun i hi => decide_eq_false (by unfold Defined; omega)) i
  rw [canonical, BitVec.getLsbD_and, hmask]

/-- A word that holds nothing but fields. -/
structure Plain (word : BitVec 32) : Prop where
  between : bitsOf word 10 6 = 0
  top : bitsOf word 23 9 = 0

theorem plain_canonical (word : BitVec 32) : Plain (canonical word) := by
  have hnone {i : Nat} (h : ¬Defined i) : (canonical word).getLsbD i = false := by
    rw [getLsbD_canonical, decide_eq_false h, Bool.and_false]
  refine ⟨bitsOf_eq_zero fun i hi hi' => hnone ?_, bitsOf_eq_zero fun i hi hi' => hnone ?_⟩
  · unfold Defined
    omega
  · unfold Defined
    omega

theorem plain_encode (p : CodeProperties) : Plain p.encode where
  between := BitVec.eq_of_toNat_eq (packing.bitsOf_encode (p.fields.take 10) (f := .unused 6) rfl rfl)
  top := bitsOf_eq_zero_of_lt (packing.toNat_encode_lt p.total_fields)

/-- The fields of a plain word are its parts. -/
theorem fields_decode {word : BitVec 32} (h : Plain word) :
    packing.fields (decode word) = parts packing.widths word.toNat := by
  rw [parts_eq_div]
  simp only [packing, parts_cons_div, parts_nil, fields, decode, ofBits_bitsOf, ofFlag_getLsbD,
    unused_of_bitsOf h.between, Nat.reduceAdd]

theorem encode_decode_of_plain {word : BitVec 32} (h : Plain word) : (decode word).encode = word :=
  packing.encode_of_parts (fields_decode h) (total_fields _) (toNat_lt_of_bitsOf h.top rfl)

/-- Words that agree in the bits that some field holds. -/
def Alike (a b : BitVec 32) : Prop := ∀ i, Defined i → a.getLsbD i = b.getLsbD i

theorem decode_eq_of_alike {a b : BitVec 32} (h : Alike a b) : decode a = decode b := by
  have hsize : bitsOf a 17 2 = bitsOf b 17 2 := bitsOf_congr fun i hi hi' => h i (by unfold Defined; omega)
  have hflag (i : Nat) (hi : Defined i) : a.getLsbD i = b.getLsbD i := h i hi
  simp (disch := decide) only [decode, hsize, hflag]

theorem alike_canonical (word : BitVec 32) : Alike (canonical word) word := fun i hi => by
  rw [getLsbD_canonical, decide_eq_true hi, Bool.and_true]

theorem encode_decode (word : BitVec 32) : (decode word).encode = canonical word := by
  rw [← decode_eq_of_alike (alike_canonical word), encode_decode_of_plain (plain_canonical word)]

theorem decode_encode (p : CodeProperties) : decode p.encode = p :=
  packing.encode_inj (encode_decode_of_plain (plain_encode p))

theorem decode_eq_iff {a b : BitVec 32} : decode a = decode b ↔ Alike a b := by
  refine ⟨fun h i hi => ?_, decode_eq_of_alike⟩
  rw [← alike_canonical a i hi, ← encode_decode, h, encode_decode, alike_canonical b i hi]

end CodeProperties

/-! ### Fields of machine words -/

/-- A shift and a mask cut the bits of a field out. -/
theorem toNat_masked {start width : Nat} (word : UInt64) (hstart : start < 64) (hwidth : width < 64) :
    (masked word start width).toNat = (bitsOf word.toBitVec start width).toNat := by
  have hshift : start.toUInt64.toNat = start := Nat.mod_eq_of_lt (by omega)
  have hcount : width.toUInt64.toNat = width := Nat.mod_eq_of_lt (by omega)
  have hpow : 2 ^ width < 2 ^ 64 := Nat.pow_lt_pow_right (by decide) hwidth
  have hbit : ((1 : UInt64) <<< width.toUInt64).toNat = 2 ^ width := by
    rw [UInt64.toNat_shiftLeft, hcount, Nat.mod_eq_of_lt hwidth, UInt64.toNat_one, Nat.one_shiftLeft,
      Nat.mod_eq_of_lt hpow]
  have hmask : ((1 : UInt64) <<< width.toUInt64 - 1).toNat = 2 ^ width - 1 := by
    have hle : (1 : UInt64) ≤ 1 <<< width.toUInt64 := by
      rw [UInt64.le_iff_toNat_le, hbit]
      exact Nat.one_le_two_pow
    rw [UInt64.toNat_sub_of_le _ _ hle, hbit, UInt64.toNat_one]
  rw [masked, UInt64.toNat_and, UInt64.toNat_shiftRight, hshift, hmask, Nat.mod_eq_of_lt hstart,
    Nat.and_two_pow_sub_one_eq_mod, toNat_bitsOf, Nat.shiftRight_eq_div_pow]
  rfl

theorem toNat_bitsOf_lt {n width bound : Nat} (word : BitVec n) (start : Nat) (h : width ≤ bound) :
    (bitsOf word start width).toNat < Nat.pow 2 bound :=
  Nat.lt_of_lt_of_le (bitsOf word start width).isLt (Nat.pow_le_pow_right (by decide) h)

/-- An octet keeps a field of eight bits at most. -/
theorem toNat_toUInt8_masked {start width : Nat} (word : UInt64) (hstart : start < 64) (hwidth : width ≤ 8) :
    (masked word start width).toUInt8.toNat = (bitsOf word.toBitVec start width).toNat := by
  rw [UInt64.toNat_toUInt8, toNat_masked word hstart (by omega),
    Nat.mod_eq_of_lt (toNat_bitsOf_lt word.toBitVec start hwidth)]

/-- Two octets keep a field of sixteen bits at most. -/
theorem toNat_toUInt16_masked {start width : Nat} (word : UInt64) (hstart : start < 64) (hwidth : width ≤ 16) :
    (masked word start width).toUInt16.toNat = (bitsOf word.toBitVec start width).toNat := by
  rw [UInt64.toNat_toUInt16, toNat_masked word hstart (by omega),
    Nat.mod_eq_of_lt (toNat_bitsOf_lt word.toBitVec start hwidth)]

/-- Words in which the numbers are kept as they are. -/
structure PgmResources.Numbers.Exact (kept : Numbers) (p : PgmResources) : Prop where
  granulatedWorkitemVgprCount : kept.granulatedWorkitemVgprCount.toNat = p.granulatedWorkitemVgprCount.toNat
  granulatedWavefrontSgprCount : kept.granulatedWavefrontSgprCount.toNat = p.granulatedWavefrontSgprCount.toNat
  priority : kept.priority.toNat = p.priority.toNat
  userSgprCount : kept.userSgprCount.toNat = p.userSgprCount.toNat
  granulatedLdsSize : kept.granulatedLdsSize.toNat = p.granulatedLdsSize.toNat

theorem PgmResources.Numbers.exact_ofWord (word : UInt64) : (ofWord word).Exact (decode word.toBitVec) where
  granulatedWorkitemVgprCount := toNat_toUInt8_masked word (by decide) (by decide)
  granulatedWavefrontSgprCount := toNat_toUInt8_masked word (by decide) (by decide)
  priority := toNat_toUInt8_masked word (by decide) (by decide)
  userSgprCount := toNat_toUInt8_masked word (by decide) (by decide)
  granulatedLdsSize := toNat_toUInt16_masked word (by decide) (by decide)

theorem CodeProperties.toNat_elementSizeOctet (word : UInt32) :
    (elementSizeOctet word).toNat = (decode word.toBitVec).privateElementSize.toNat := by
  rw [elementSizeOctet, toNat_toUInt8_masked _ (by decide) (by decide), decode, toNat_bitsOf, toNat_bitsOf]
  rfl

/-! ### Both registers -/

/-- The fields of a register word tell each of its bits that some field holds, and no other: packed, they are the word
without the other bits and with an id of two for one of three, and fields that are packed are found again. Words have
the same fields exactly if they agree in the bits of the fields, up to ids of two and three, and nothing is lost where
a field is kept in a narrower word. The same holds of the code properties, which have no id. -/
theorem fields_iff_bits :
    (∀ word, (PgmResources.decode word).encode = PgmResources.canonical word) ∧
    (∀ word i, (PgmResources.canonical word).getLsbD i =
      (word.getLsbD i && decide (PgmResources.Defined i) && !(i == 43 && word.getLsbD 44))) ∧
    (∀ p, PgmResources.decode p.encode = p) ∧
    (∀ a b, PgmResources.decode a = PgmResources.decode b ↔ PgmResources.Alike a b) ∧
    (∀ word : UInt64, (PgmResources.Numbers.ofWord word).Exact (PgmResources.decode word.toBitVec)) ∧
    (∀ word, (CodeProperties.decode word).encode = CodeProperties.canonical word) ∧
    (∀ word i, (CodeProperties.canonical word).getLsbD i = (word.getLsbD i && decide (CodeProperties.Defined i))) ∧
    (∀ p, CodeProperties.decode p.encode = p) ∧
    (∀ a b, CodeProperties.decode a = CodeProperties.decode b ↔ CodeProperties.Alike a b) ∧
    (∀ word : UInt32, (CodeProperties.elementSizeOctet word).toNat =
      (CodeProperties.decode word.toBitVec).privateElementSize.toNat) :=
  ⟨PgmResources.encode_decode, PgmResources.getLsbD_canonical, PgmResources.decode_encode,
    fun _ _ => PgmResources.decode_eq_iff, PgmResources.Numbers.exact_ofWord, CodeProperties.encode_decode,
    CodeProperties.getLsbD_canonical, CodeProperties.decode_encode, fun _ _ => CodeProperties.decode_eq_iff,
    CodeProperties.toNat_elementSizeOctet⟩

end GpuListing
