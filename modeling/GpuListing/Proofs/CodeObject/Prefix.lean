import GpuListing.KernelArgs.Layout
import GpuListing.Proofs.CodeObject.Reading

/-! # Longer and shorter files

A file that is read as a code object is read to no position after its end, so octets that follow it change nothing.
With that, a file that is cut off is read as the same code object, or as none: what its first 64 octets tell is
told by the whole file too. -/

namespace GpuListing

namespace Bytes
variable {file : Bytes} {start width : Nat} (rest : Bytes)

theorem slice_append (h : start + width ≤ file.length) :
    slice (file ++ rest) start width = file.slice start width := by
  have hfront : width ≤ (file.drop start).length := by
    rw [List.length_drop]
    omega
  rw [slice, List.drop_append_of_le_length (by omega), List.take_append_of_le_length hfront, slice]

theorem numberAt_append (h : start + width ≤ file.length) :
    numberAt (file ++ rest) start width = file.numberAt start width := by
  rw [numberAt, slice_append rest h, numberAt]

end Bytes

namespace CodeObject
variable {file front : Bytes} {o : CodeObject} {index : Nat} (rest : Bytes)

/-! ### What the file header tells -/

section Header
variable (hlong : 64 ≤ file.length)
include hlong

theorem isElf_append : IsElf (file ++ rest) ↔ IsElf file := by
  rw [isElf_iff, isElf_iff, List.take_append_of_le_length (by omega)]

theorem isSupported_append : IsSupported (file ++ rest) ↔ IsSupported file := by
  rw [IsSupported, IsSupported, List.getElem?_append_left (by omega), List.getElem?_append_left (by omega)]

theorem opens_append : Opens (file ++ rest) ↔ Opens file := by
  have hlonger : 64 ≤ (file ++ rest).length := by
    rw [List.length_append]
    omega
  rw [Opens, Opens, isElf_append rest hlong, isSupported_append rest hlong, iff_true_intro hlong,
    iff_true_intro hlonger]

theorem sectionCount_append : sectionCount (file ++ rest) = sectionCount file :=
  Bytes.numberAt_append rest (by omega)

theorem entrySize_append : entrySize (file ++ rest) = entrySize file := Bytes.numberAt_append rest (by omega)

theorem namesIndex_append : (file ++ rest).numberAt 0x3e 2 = file.numberAt 0x3e 2 :=
  Bytes.numberAt_append rest (by omega)

theorem entryStart_append (index : Nat) : entryStart (file ++ rest) index = entryStart file index := by
  rw [entryStart, entryStart, entrySize_append rest hlong, Bytes.numberAt_append rest (by omega)]

end Header

/-! ### What the sections hold -/

section Entry
variable (hlong : 64 ≤ file.length) (hentry : entryStart file index + 64 ≤ file.length)
include hlong hentry

/-- The numbers of a section header that is inside the file. -/
theorem entryNumber_append {offset width : Nat} (hend : offset + width ≤ 64) :
    (file ++ rest).numberAt (entryStart (file ++ rest) index + offset) width =
      file.numberAt (entryStart file index + offset) width := by
  rw [entryStart_append rest hlong, Bytes.numberAt_append rest (by omega)]

theorem nameStart_append :
    (file ++ rest).numberAt (entryStart (file ++ rest) index) 4 = file.numberAt (entryStart file index) 4 := by
  rw [entryStart_append rest hlong, Bytes.numberAt_append rest (by omega)]

theorem sectionKind_append : sectionKind (file ++ rest) index = sectionKind file index :=
  entryNumber_append rest hlong hentry (by decide)

theorem dataStart_append : dataStart (file ++ rest) index = dataStart file index :=
  entryNumber_append rest hlong hentry (by decide)

theorem dataLength_append : dataLength (file ++ rest) index = dataLength file index :=
  entryNumber_append rest hlong hentry (by decide)

theorem sectionData_append
    (hdata : sectionKind file index ≠ 8 → dataStart file index + dataLength file index ≤ file.length) :
    sectionData (file ++ rest) index = sectionData file index := by
  rw [sectionData, sectionData, sectionKind_append rest hlong hentry, dataStart_append rest hlong hentry,
    dataLength_append rest hlong hentry]
  split
  · rfl
  · next hkind => exact Bytes.slice_append rest (hdata hkind)

end Entry

/-- All that the file tells of lies inside it. -/
structure Whole (file : Bytes) : Prop where
  opens : Opens file
  entrySize : sectionCount file = 0 ∨ 64 ≤ entrySize file
  entries : EntriesFit file
  data : DataFits file

namespace Whole

theorem of_count_eq_zero (hopens : Opens file) (hcount : sectionCount file = 0) : Whole file where
  opens := hopens
  entrySize := .inl hcount
  entries := fun index hindex => absurd (hcount ▸ hindex) (Nat.not_lt_zero index)
  data := fun index hindex => absurd (hcount ▸ hindex) (Nat.not_lt_zero index)

theorem parse_eq (h : Whole file) : parse file = .ok (described file) :=
  parse_of_whole h.opens h.entrySize h.entries h.data

variable (h : Whole file)
include h

theorem sectionData_append (hindex : index < sectionCount file) :
    sectionData (file ++ rest) index = sectionData file index :=
  CodeObject.sectionData_append rest h.opens.2.1 (h.entries index hindex) (h.data index hindex)

theorem append : Whole (file ++ rest) := by
  have hlong := h.opens.2.1
  have hcount := sectionCount_append rest hlong
  have hlength : file.length ≤ (file ++ rest).length := by
    rw [List.length_append]
    omega
  constructor
  case opens => exact (opens_append rest hlong).mpr h.opens
  case entrySize =>
    rw [hcount, entrySize_append rest hlong]
    exact h.entrySize
  case entries =>
    intro index hindex
    rw [hcount] at hindex
    rw [entryStart_append rest hlong]
    exact Nat.le_trans (h.entries index hindex) hlength
  case data =>
    intro index hindex hkind
    rw [hcount] at hindex
    have hentry := h.entries index hindex
    rw [sectionKind_append rest hlong hentry] at hkind
    rw [dataStart_append rest hlong hentry, dataLength_append rest hlong hentry]
    exact Nat.le_trans (h.data index hindex hkind) hlength

theorem nameTable_append : nameTable (file ++ rest) = nameTable file := by
  have hlong := h.opens.2.1
  rw [nameTable, nameTable, namesIndex_append rest hlong, sectionCount_append rest hlong]
  split
  · next hindex => exact h.sectionData_append rest hindex
  · rfl

theorem sectionAt_append (hindex : index < sectionCount file) :
    sectionAt (file ++ rest) index = sectionAt file index := by
  have hlong := h.opens.2.1
  have hentry := h.entries index hindex
  rw [sectionAt, sectionAt, sectionName, sectionName, h.nameTable_append rest, nameStart_append rest hlong hentry,
    entryNumber_append rest hlong hentry (by decide), h.sectionData_append rest hindex]

theorem described_append : described (file ++ rest) = described file := by
  have hlong := h.opens.2.1
  have hsections : (List.range (sectionCount file)).map (sectionAt (file ++ rest)) =
      (List.range (sectionCount file)).map (sectionAt file) :=
    List.map_congr_left fun index hindex => h.sectionAt_append rest (List.mem_range.mp hindex)
  rw [described, described, sectionCount_append rest hlong, hsections, Bytes.numberAt_append rest (by omega)]

end Whole

/-! ### Reading longer and shorter files -/

theorem whole_of_parse (h : parse file = .ok o) : Whole file ∧ o = described file := by
  have houtcome := outcome file
  rw [h] at houtcome
  cases houtcome with
  | empty hopens hcount => exact ⟨.of_count_eq_zero hopens hcount, rfl⟩
  | whole hopens hsize hentries hdata => exact ⟨⟨hopens, .inr hsize, hentries, hdata⟩, rfl⟩

theorem parse_append (h : parse file = .ok o) : parse (file ++ rest) = .ok o := by
  obtain ⟨hwhole, rfl⟩ := whole_of_parse h
  rw [(hwhole.append rest).parse_eq, hwhole.described_append rest]

/-- What may come of a file that is cut off. -/
theorem parse_front (h : parse (front ++ rest) = .ok o) :
    parse front = .ok o ∨ parse front = .error .notElf ∨ parse front = .error (.truncated .fileHeader) ∨
      parse front = .error (.truncated .sectionHeader) ∨ parse front = .error (.truncated .sectionData) := by
  have hwhole := (whole_of_parse h).1
  cases hfront : parse front with
  | ok other =>
    -- The whole file is read as what its front is read as.
    rw [parse_append rest hfront] at h
    exact .inl h
  | error e =>
    have houtcome := outcome front
    rw [hfront] at houtcome
    cases houtcome with
    | unsupported _ hlong hclass =>
      exact absurd ((isSupported_append rest hlong).mp hwhole.opens.2.2) hclass
    | smallEntry hopens hcount hsize =>
      have hlong := hopens.2.1
      have hentry := hwhole.entrySize
      rw [sectionCount_append rest hlong, entrySize_append rest hlong] at hentry
      exact absurd (hentry.resolve_left hcount) (Nat.not_le.mpr hsize)
    | _ => simp

/-- Octets after the end of a file that is read as a code object change nothing, and a file of which only the
    front is left is read as the same code object or is found to be cut off. -/
theorem parse_stable {file : Bytes} {o : CodeObject} (h : parse file = .ok o) :
    (∀ rest, parse (file ++ rest) = .ok o ∧ readText (file ++ rest) = readText file ∧
      (parse (file ++ rest)).map KernelArgs.ofCodeObject = (parse file).map KernelArgs.ofCodeObject) ∧
    (∀ front, front <+: file →
      (parse front = .ok o ∨ parse front = .error .notElf ∨ TruncatedIn front "ELF header" ∨
        TruncatedIn front "section header" ∨ TruncatedIn front "section data") ∧
      (∀ other, parse front = .ok other → other = o) ∧ parse front ≠ .error .unsupportedClass ∧
      ¬TruncatedIn front "section header entry") := by
  refine ⟨fun rest => ?_, ?_⟩
  · have hlonger := parse_append rest h
    rw [readText, readText, hlonger, h]
    exact ⟨rfl, rfl, rfl⟩
  · rintro front ⟨rest, rfl⟩
    have hfileHeader : TruncatedIn front "ELF header" ↔ _ := truncatedIn_iff .fileHeader
    have hentry : TruncatedIn front "section header entry" ↔ _ := truncatedIn_iff .sectionEntry
    have hheader : TruncatedIn front "section header" ↔ _ := truncatedIn_iff .sectionHeader
    have hdata : TruncatedIn front "section data" ↔ _ := truncatedIn_iff .sectionData
    rw [hfileHeader, hentry, hheader, hdata]
    have hcases := parse_front rest h
    refine ⟨hcases, ?_⟩
    rcases hcases with hfront | hfront | hfront | hfront | hfront <;> rw [hfront] <;> simp [eq_comm]

/-- A file that ends with the two octets of its only section. -/
def twoOctets : Bytes := headerOctets 0xe0 64 1 ++ SectionHeader.octets ⟨2, withData, 0, 128, 2⟩ ++ [0x2e, 0x74]

theorem twoOctets_stable :
    parse twoOctets = .ok ⟨0xe0, [⟨"", 0, [0x2e, 0x74]⟩]⟩ ∧
      parse (twoOctets ++ [0x65]) = .ok ⟨0xe0, [⟨"", 0, [0x2e, 0x74]⟩]⟩ ∧
      parse (twoOctets.take 129) ≠ .error .unsupportedClass ∧
      ¬TruncatedIn (twoOctets.take 129) "section header entry" := by
  have hwhole : Whole twoOctets :=
    ⟨by decide +kernel, .inr (by decide +kernel), by decide +kernel, by decide +kernel⟩
  have hdescribed : described twoOctets = ⟨0xe0, [⟨"", 0, [0x2e, 0x74]⟩]⟩ := by decide +kernel
  have hparse := hwhole.parse_eq.trans (congrArg Except.ok hdescribed)
  obtain ⟨hlonger, hshorter⟩ := parse_stable hparse
  obtain ⟨-, -, hclass, hentry⟩ := hshorter _ (List.take_prefix 129 twoOctets)
  exact ⟨hparse, (hlonger [0x65]).1, hclass, hentry⟩

end CodeObject

end GpuListing
