import GpuListing.KernelCode.Layout
import GpuListing.Proofs.CodeObject.Exact
import GpuListing.Proofs.KernelCode.Faultless

/-! # Headers and their octets

A header with its gaps is read back from its octets, and kernel code is the octets of the header that is read from
it, with its own gaps, and the machine code. So what is split off tells each octet that is in no gap, and no octet of
a gap. -/

namespace GpuListing

namespace Bytes

/-- Consecutive pieces of some octets, of the given widths. -/
def slices (bytes : Bytes) : (start : Nat) → (widths : List Nat) → List Bytes
  | _, [] => []
  | start, width :: rest => bytes.slice start width :: slices bytes (start + width) rest

theorem slice_append_slice (bytes : Bytes) (start width more : Nat) :
    bytes.slice start width ++ bytes.slice (start + width) more = bytes.slice start (width + more) := by
  rw [slice, slice, slice, List.take_add, List.drop_drop]

theorem flatten_slices (bytes : Bytes) (start : Nat) (widths : List Nat) :
    (bytes.slices start widths).flatten = bytes.slice start widths.sum := by
  induction widths generalizing start with
  | nil => rfl
  | cons width rest ih => rw [slices, List.flatten_cons, ih, slice_append_slice, List.sum_cons]

theorem digits_numberAt {bytes : Bytes} {start width : Nat} (h : start + width ≤ bytes.length) :
    digits width (bytes.numberAt start width) = bytes.slice start width := by
  have hlength : (bytes.slice start width).length = width := by
    rw [slice, List.length_take, List.length_drop]
    omega
  have hdigits := digits_number (bytes.slice start width)
  rwa [hlength] at hdigits

end Bytes

/-! ### Reading what is written -/

namespace Cursor

/-- A cursor takes pieces of octets off, whatever follows them, and gives a value. -/
def Reads {α : Type} (cursor : Cursor α) (pieces : List Bytes) (a : α) : Prop :=
  ∀ rest, cursor.run (pieces.flatten ++ rest) = (a, rest)

namespace Reads
variable {α β : Type} {cursor : Cursor α} {piece : Bytes} {pieces : List Bytes} {a : α} {b : β}

theorem number {width n : Nat} (h : n < Nat.pow 256 width) : Reads (Cursor.number width) [.digits width n] n := by
  intro rest
  rw [List.flatten_singleton, Cursor.run_number rest h]

theorem skip {width : Nat} (h : piece.length = width) : Reads (Cursor.skip width) [piece] () := by
  intro rest
  rw [List.flatten_singleton]
  exact congrArg (Prod.mk ()) (List.drop_left' h)

theorem pure (a : α) : Reads (Pure.pure a) [] a := fun _ => rfl

theorem map (f : α → β) (h : Reads cursor pieces a) : Reads (f <$> cursor) pieces (f a) := fun rest =>
  congrArg (Prod.map f id) (h rest)

theorem bind {next : α → Cursor β} (h : Reads cursor [piece] a) (hnext : Reads (next a) pieces b) :
    Reads (cursor >>= next) (piece :: pieces) b := by
  intro rest
  have hfirst := h (pieces.flatten ++ rest)
  rw [List.flatten_singleton, ← List.append_assoc] at hfirst
  rw [List.flatten_cons]
  show (next (cursor.run _).1).run (cursor.run _).2 = _
  rw [hfirst]
  exact hnext rest

theorem word8 (v : UInt8) : Reads Cursor.word8 [.digits 1 v.toNat] v := by
  have h := (@number 1 _ v.toNat_lt).map UInt8.ofNat
  rwa [UInt8.ofNat_toNat] at h

theorem word16 (v : UInt16) : Reads Cursor.word16 [.digits 2 v.toNat] v := by
  have h := (@number 2 _ v.toNat_lt).map UInt16.ofNat
  rwa [UInt16.ofNat_toNat] at h

theorem word32 (v : UInt32) : Reads Cursor.word32 [.digits 4 v.toNat] v := by
  have h := (@number 4 _ v.toNat_lt).map UInt32.ofNat
  rwa [UInt32.ofNat_toNat] at h

theorem word64 (v : UInt64) : Reads Cursor.word64 [.digits 8 v.toNat] v := by
  have h := (@number 8 _ v.toNat_lt).map UInt64.ofNat
  rwa [UInt64.ofNat_toNat] at h

theorem signed32 (v : Int32) : Reads Cursor.signed32 [.digits 4 v.toUInt32.toNat] v := by
  have h := (word32 v.toUInt32).map UInt32.toInt32
  rwa [Int32.toInt32_toUInt32] at h

theorem signed64 (v : Int64) : Reads Cursor.signed64 [.digits 8 v.toUInt64.toNat] v := by
  have h := (word64 v.toUInt64).map UInt64.toInt64
  rwa [Int64.toInt64_toUInt64] at h

end Reads

end Cursor

namespace KernelHeader

section Fields
open Cursor.Reads

/-- All pieces of a header but the last one, which no field is read from. -/
theorem reads_pieces (h : KernelHeader) (gaps : HeaderGaps) : Cursor.Reads read (h.pieces gaps).dropLast h := by
  refine (word32 _).bind <| (word32 _).bind <| (word16 _).bind <| (word16 _).bind ?_
  refine (word16 _).bind <| (word16 _).bind <| (signed64 _).bind <| (signed64 _).bind ?_
  refine (word64 _).bind <| (skip gaps.length_afterPrefetch).bind <| (word64 _).bind <| (word32 _).bind ?_
  refine (word32 _).bind <| (word32 _).bind <| (word32 _).bind <| (word64 _).bind ?_
  refine (word32 _).bind <| (word16 _).bind <| (word16 _).bind <| (word16 _).bind ?_
  refine (word16 _).bind <| (word16 _).bind <| (word16 _).bind <| (word16 _).bind ?_
  refine (word16 _).bind <| (word8 _).bind <| (word8 _).bind <| (word8 _).bind ?_
  refine (word8 _).bind <| (signed32 _).bind <| (skip gaps.length_afterConvention).bind <| (word64 _).bind ?_
  exact .pure h

end Fields

/-- The header in kernel code, each field at its offset. -/
def ofCode (code : Bytes) : KernelHeader where
  codeVersionMajor := .ofNat (code.numberAt 0 4)
  codeVersionMinor := .ofNat (code.numberAt 4 4)
  machineKind := .ofNat (code.numberAt 8 2)
  machineVersionMajor := .ofNat (code.numberAt 10 2)
  machineVersionMinor := .ofNat (code.numberAt 12 2)
  machineVersionStepping := .ofNat (code.numberAt 14 2)
  codeEntryOffset := (UInt64.ofNat (code.numberAt 16 8)).toInt64
  codePrefetchOffset := (UInt64.ofNat (code.numberAt 24 8)).toInt64
  codePrefetchSize := .ofNat (code.numberAt 32 8)
  pgmResourceRegisters := .ofNat (code.numberAt 48 8)
  codeProperties := .ofNat (code.numberAt 56 4)
  workitemPrivateSegmentSize := .ofNat (code.numberAt 60 4)
  workgroupGroupSegmentSize := .ofNat (code.numberAt 64 4)
  gdsSegmentSize := .ofNat (code.numberAt 68 4)
  kernargSegmentSize := .ofNat (code.numberAt 72 8)
  workgroupFbarrierCount := .ofNat (code.numberAt 80 4)
  wavefrontSgprCount := .ofNat (code.numberAt 84 2)
  workitemVgprCount := .ofNat (code.numberAt 86 2)
  reservedVgprFirst := .ofNat (code.numberAt 88 2)
  reservedVgprCount := .ofNat (code.numberAt 90 2)
  reservedSgprFirst := .ofNat (code.numberAt 92 2)
  reservedSgprCount := .ofNat (code.numberAt 94 2)
  debugWavefrontPrivateSegmentOffsetSgpr := .ofNat (code.numberAt 96 2)
  debugPrivateSegmentBufferSgpr := .ofNat (code.numberAt 98 2)
  kernargSegmentAlignment := .ofNat (code.numberAt 100 1)
  groupSegmentAlignment := .ofNat (code.numberAt 101 1)
  privateSegmentAlignment := .ofNat (code.numberAt 102 1)
  wavefrontSize := .ofNat (code.numberAt 103 1)
  callConvention := (UInt32.ofNat (code.numberAt 104 4)).toInt32
  runtimeLoaderKernelSymbol := .ofNat (code.numberAt 120 8)

section Words
variable (code : Bytes) (start : Nat)

theorem toNat_word8 : (UInt8.ofNat (code.numberAt start 1)).toNat = code.numberAt start 1 :=
  UInt8.toNat_ofNat_of_lt (code.numberAt_lt start 1)

theorem toNat_word16 : (UInt16.ofNat (code.numberAt start 2)).toNat = code.numberAt start 2 :=
  UInt16.toNat_ofNat_of_lt (code.numberAt_lt start 2)

theorem toNat_word32 : (UInt32.ofNat (code.numberAt start 4)).toNat = code.numberAt start 4 :=
  UInt32.toNat_ofNat_of_lt (code.numberAt_lt start 4)

theorem toNat_word64 : (UInt64.ofNat (code.numberAt start 8)).toNat = code.numberAt start 8 :=
  UInt64.toNat_ofNat_of_lt (code.numberAt_lt start 8)

end Words

theorem pieces_ofCode {code : Bytes} (h : size ≤ code.length) :
    (ofCode code).pieces (.ofCode code h) = code.slices 0 (widths ++ [128]) := by
  replace h : 256 ≤ code.length := h
  simp (disch := omega) only [pieces, ofCode, HeaderGaps.ofCode, UInt32.toUInt32_toInt32, UInt64.toUInt64_toInt64,
    toNat_word8, toNat_word16, toNat_word32, toNat_word64, Bytes.digits_numberAt]
  rfl

/-! ### The octets of a header -/

theorem octets_eq (h : KernelHeader) (gaps : HeaderGaps) :
    h.octets gaps = (h.pieces gaps).dropLast.flatten ++ gaps.directives := by
  have hpieces : h.pieces gaps = (h.pieces gaps).dropLast ++ [gaps.directives] := rfl
  rw [octets, hpieces, List.flatten_append, List.flatten_singleton, List.dropLast_concat]

theorem split_octets (h : KernelHeader) (gaps : HeaderGaps) (rest : Bytes) :
    split (h.octets gaps ++ rest) = .ok (h, rest) := by
  have hlength := h.length_octets gaps
  have hlong : ¬(h.octets gaps ++ rest).length < size := by
    rw [List.length_append, hlength]
    omega
  rw [split, if_neg hlong, List.take_left' hlength, List.drop_left' hlength, octets_eq, h.reads_pieces gaps]

theorem octets_ofCode {code : Bytes} (h : size ≤ code.length) :
    (ofCode code).octets (.ofCode code h) = code.take size := by
  rw [octets, pieces_ofCode, Bytes.flatten_slices]
  rfl

theorem split_ofCode {code : Bytes} (h : size ≤ code.length) : split code = .ok (ofCode code, code.drop size) := by
  have hsplit := split_octets (ofCode code) (.ofCode code h) (code.drop size)
  rwa [octets_ofCode, List.take_append_drop] at hsplit

/-! ### Gaps -/

/-- The positions of octets that no field is read from. -/
def IsGap (position : Nat) : Prop :=
  40 ≤ position ∧ position < 48 ∨ 108 ≤ position ∧ position < 120 ∨ 128 ≤ position ∧ position < 256

instance (position : Nat) : Decidable (IsGap position) := inferInstanceAs (Decidable (_ ∨ _))

/-- The octets before, between and after the gaps are those of the fields alone. -/
theorem exists_runs (h : KernelHeader) : ∃ first second third : Bytes,
    first.length = 40 ∧ second.length = 60 ∧ third.length = 8 ∧ ∀ gaps : HeaderGaps, h.octets gaps =
      first ++ (gaps.afterPrefetch ++ (second ++ (gaps.afterConvention ++ (third ++ gaps.directives)))) := by
  have hzero : size ≤ (List.replicate size (0 : UInt8)).length := Nat.le_of_eq List.length_replicate.symm
  have hpieces : ∀ gaps, h.pieces gaps =
      (h.pieces (.ofCode _ hzero)).take 9 ++ (gaps.afterPrefetch :: ((h.pieces (.ofCode _ hzero)).drop 10).take 20 ++
        (gaps.afterConvention :: ((h.pieces (.ofCode _ hzero)).drop 31).take 1 ++ [gaps.directives])) :=
    fun _ => rfl
  refine ⟨((h.pieces (.ofCode _ hzero)).take 9).flatten, (((h.pieces (.ofCode _ hzero)).drop 10).take 20).flatten,
    (((h.pieces (.ofCode _ hzero)).drop 31).take 1).flatten, ?_, ?_, ?_, fun gaps => ?_⟩
  · simp [pieces]
  · simp [pieces]
  · simp [pieces]
  · rw [octets, hpieces gaps]
    simp only [List.flatten_append, List.flatten_cons, List.flatten_nil, List.append_assoc, List.append_nil]

/-- The octet of a gap at a position of kernel code. -/
def gapOctet (gaps : HeaderGaps) (position : Nat) : Option UInt8 :=
  if position < 48 then gaps.afterPrefetch[position - 40]?
  else if position < 120 then gaps.afterConvention[position - 108]?
  else gaps.directives[position - 128]?

/-- The octets in gaps are those of the gaps, and the others those of the fields, up to the machine code. -/
theorem exists_octetAt (h : KernelHeader) : ∃ octetAt : Nat → Option UInt8,
    ∀ (gaps : HeaderGaps) (rest : Bytes) (position : Nat), (h.octets gaps ++ rest)[position]? =
      if IsGap position then gapOctet gaps position
      else if position < size then octetAt position else rest[position - size]? := by
  obtain ⟨first, second, third, hfirst, hsecond, hthird, hruns⟩ := h.exists_runs
  refine ⟨fun position => if position < 40 then first[position]? else if position < 108 then second[position - 48]?
    else third[position - 120]?, fun gaps rest position => ?_⟩
  have hprefetch := gaps.length_afterPrefetch
  have hconvention := gaps.length_afterConvention
  have hdirectives := gaps.length_directives
  simp only [hruns, List.append_assoc, List.getElem?_append, hfirst, hsecond, hthird, hprefetch, hconvention,
    hdirectives, Nat.sub_sub]
  unfold IsGap gapOctet size
  grind

theorem eq_octets_append {code : Bytes} (h : size ≤ code.length) :
    code = (ofCode code).octets (.ofCode code h) ++ code.drop size := by
  rw [octets_ofCode, List.take_append_drop]

section Agreement
variable {a b : Bytes} (ha : size ≤ a.length) (hb : size ≤ b.length)
include ha hb

theorem getElem?_eq_of_split_eq {position : Nat} (h : split a = split b) (hposition : ¬IsGap position) :
    a[position]? = b[position]? := by
  rw [split_ofCode ha, split_ofCode hb] at h
  obtain ⟨hheader, hrest⟩ := Prod.mk.inj (Except.ok.inj h)
  obtain ⟨octetAt, hoctets⟩ := (ofCode a).exists_octetAt
  rw [eq_octets_append ha, eq_octets_append hb, ← hheader, ← hrest, hoctets, hoctets, if_neg hposition,
    if_neg hposition]

theorem split_eq_of_getElem?_eq (h : ∀ position, ¬IsGap position → a[position]? = b[position]?) :
    split a = split b := by
  -- The fields and the machine code of the one between the gaps of the other make up the other.
  have hboth : (ofCode a).octets (.ofCode b hb) ++ a.drop size = b := by
    obtain ⟨octetAt, hoctets⟩ := (ofCode a).exists_octetAt
    obtain ⟨octetAt', hoctets'⟩ := (ofCode b).exists_octetAt
    refine List.ext_getElem? fun position => ?_
    by_cases hposition : IsGap position
    · have hgap := hoctets' (.ofCode b hb) (b.drop size) position
      rw [← eq_octets_append hb, if_pos hposition] at hgap
      rw [hoctets, if_pos hposition, hgap]
    · have hfield := hoctets (.ofCode a ha) (a.drop size) position
      rw [← eq_octets_append ha, if_neg hposition] at hfield
      rw [hoctets, if_neg hposition, ← hfield, h position hposition]
  rw [split_ofCode ha, ← hboth, split_octets]

end Agreement

/-- A header is split off as what it is written as, and the other way round: the fields in their order, each
    little-endian, with the gaps between them. Two codes are split alike if they agree outside of the gaps, and only
    then. What is too short for a header is refused, and nothing is read outside of its octets. -/
theorem split_codec :
    (∀ (h : KernelHeader) (gaps : HeaderGaps) (rest : Bytes), split (h.octets gaps ++ rest) = .ok (h, rest)) ∧
    (∀ (code : Bytes) (long : size ≤ code.length), ∃ h, split code = .ok (h, code.drop size) ∧
      code = h.octets (.ofCode code long) ++ code.drop size) ∧
    (∀ a b : Bytes, size ≤ a.length → size ≤ b.length →
      (split a = split b ↔ ∀ position, ¬IsGap position → a[position]? = b[position]?)) ∧
    (∀ code : Bytes, code.length < size → split code = .error (.shortKernelCode code.length)) ∧
    ∀ code, Guarded.split code = Guarded.ofExcept (split code) :=
  ⟨split_octets, fun code long => ⟨ofCode code, split_ofCode long, eq_octets_append long⟩,
    fun _ _ ha hb => ⟨fun h _ => getElem?_eq_of_split_eq ha hb h, split_eq_of_getElem?_eq ha hb⟩,
    fun _ short => if_pos short, Guarded.split_eq⟩

end KernelHeader

end GpuListing
