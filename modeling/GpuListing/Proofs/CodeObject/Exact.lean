import GpuListing.CodeObject.Basic
import GpuListing.Proofs.Library.Results

/-! # Reading at exact positions

When a code object is read, and which fault is told when it is not. Every header is read before any section, so
a header outside of the file is told before a section outside of it; among headers, and among sections, the
order does not count, since all are told alike. -/

namespace GpuListing

namespace Bytes

theorem numberAt_lt (file : Bytes) (start width : Nat) : file.numberAt start width < Nat.pow 256 width := by
  refine Nat.lt_of_lt_of_le (number_lt _) ?_
  rw [Nat.pow_eq, Nat.pow_eq]
  exact Nat.pow_le_pow_right (by decide) (List.length_take_le _ _)

theorem octet_ne_iff {file : Bytes} {position : Nat} (h : position < file.length) (value : UInt8) :
    file[position] ≠ value ↔ file.numberAt position 1 ≠ value.toNat := by
  have hnumber : file.numberAt position 1 = file[position].toNat := by
    rw [numberAt, slice, List.drop_eq_getElem_cons h]
    rfl
  rw [hnumber, ne_eq, ne_eq, UInt8.toNat_inj]

end Bytes

namespace SectionHeader

/-- The section takes no room, or lies inside the file. -/
def Inside (header : SectionHeader) (file : Bytes) : Prop :=
  header.kind = withoutData ∨ header.start + header.length ≤ file.length

instance (header : SectionHeader) (file : Bytes) : Decidable (header.Inside file) :=
  inferInstanceAs (Decidable (_ ∨ _))

/-- The octets of a section that lies inside the file. -/
def content (header : SectionHeader) (file : Bytes) : Bytes :=
  if header.kind = withoutData then [] else file.slice header.start header.length

theorem data_eq_ite (header : SectionHeader) (file : Bytes) :
    header.data file =
      if header.Inside file then .ok (header.content file) else .error (.truncated .sectionData) := by
  unfold SectionHeader.data content Inside
  by_cases hkind : header.kind = withoutData
  · simp [hkind]
  · simp [hkind]

end SectionHeader

namespace CodeObject

theorem four_le_of_magic {file : Bytes} (h : file.take 4 = magic) : 4 ≤ file.length := by
  have hlength := congrArg List.length h
  rw [List.length_take] at hlength
  have : magic.length = 4 := rfl
  omega

/-- The section headers, each at its place. -/
def SectionTable.entries (table : SectionTable) (file : Bytes) : List SectionHeader :=
  (List.range table.count).map fun index => SectionHeader.readAt file (table.start + index * table.entrySize)

theorem SectionTable.headers_eq_ite (table : SectionTable) (file : Bytes) :
    table.headers file =
      if ∀ index < table.count, table.start + index * table.entrySize + SectionHeader.size ≤ file.length then
        .ok (table.entries file)
      else .error (.truncated .sectionHeader) := by
  have h := mapM_ite (p := fun index => table.start + index * table.entrySize + SectionHeader.size ≤ file.length)
    (fun index => SectionHeader.readAt file (table.start + index * table.entrySize))
    (CodeObjectError.truncated .sectionHeader) (List.range table.count)
  simp only [List.mem_range] at h
  exact h

/-- The octets of the section that holds the names; none if there is no section of that number. -/
def nameOctetsOf (file : Bytes) (headers : List SectionHeader) (index : Nat) : Bytes :=
  (headers[index]?.map fun header => header.content file).getD []

theorem names_of_inside {file : Bytes} {headers : List SectionHeader} (h : ∀ header ∈ headers, header.Inside file)
    (index : Nat) : names file headers index = .ok (nameOctetsOf file headers index) := by
  unfold names nameOctetsOf
  cases hi : headers[index]? with
  | none => rfl
  | some header =>
    have hmem : header ∈ headers := List.mem_of_getElem? hi
    simp only [SectionHeader.data_eq_ite, if_pos (h header hmem), Option.map_some, Option.getD_some]

/-- The section that a header leads to. -/
def sectionOf (file : Bytes) (names : Bytes) (header : SectionHeader) : Section :=
  ⟨nameAt names header.nameStart, UInt64.ofNat header.addr, header.content file⟩

theorem mapM_sectionOf (file names : Bytes) (headers : List SectionHeader) :
    (headers.mapM fun header => do
      return (⟨nameAt names header.nameStart, UInt64.ofNat header.addr, ← header.data file⟩ : Section)) =
      if ∀ header ∈ headers, header.Inside file then .ok (headers.map (sectionOf file names))
      else .error (.truncated .sectionData) := by
  rw [← mapM_ite]
  refine congrArg (List.mapM · headers) (funext fun header => ?_)
  rw [SectionHeader.data_eq_ite]
  split <;> rfl

theorem readSections_eq (file : Bytes) (table : SectionTable) :
    readSections file table =
      if ∀ index < table.count, table.start + index * table.entrySize + SectionHeader.size ≤ file.length then
        if ∀ header ∈ table.entries file, header.Inside file then
          .ok ((table.entries file).map
            (sectionOf file (nameOctetsOf file (table.entries file) table.namesIndex)))
        else .error (.truncated .sectionData)
      else .error (.truncated .sectionHeader) := by
  rw [readSections, table.headers_eq_ite]
  by_cases hfits : ∀ index < table.count, table.start + index * table.entrySize + SectionHeader.size ≤ file.length
  · rw [if_pos hfits, if_pos hfits]
    by_cases hinside : ∀ header ∈ table.entries file, header.Inside file
    · rw [if_pos hinside]
      show (names file (table.entries file) table.namesIndex >>= _) = _
      rw [names_of_inside hinside]
      show (table.entries file).mapM _ = _
      rw [mapM_sectionOf, if_pos hinside]
    · rw [if_neg hinside]
      show (names file (table.entries file) table.namesIndex >>= _) = _
      -- The section of the names may be the first one that is found outside.
      cases hn : names file (table.entries file) table.namesIndex with
      | ok octets =>
        show (table.entries file).mapM _ = _
        rw [mapM_sectionOf, if_neg hinside]
      | error e =>
        unfold names at hn
        split at hn
        · cases hn
        · rw [SectionHeader.data_eq_ite] at hn
          split at hn
          · cases hn
          · obtain rfl := Except.error.inj hn
            rfl
  · rw [if_neg hfits, if_neg hfits]
    rfl

end CodeObject

end GpuListing
