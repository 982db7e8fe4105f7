import GpuListing.CodeObject.Image
import GpuListing.Proofs.CodeObject.Faultless

/-! # What a file tells

The outcome of reading a code object by the numbers that stand at their places in the file. The sums are exact:
a section header or a section whose end no word holds lies outside of the file like any other that ends beyond
it. -/

namespace GpuListing.CodeObject

/-! ### Places in a file -/

section Places
variable (file : Bytes)

def IsElf : Prop := 4 ≤ file.length ∧ file.take 4 = [0x7f, 0x45, 0x4c, 0x46]

/-- The file is made for machines with words of 64 bits and the lowest octet first. -/
def IsSupported : Prop := file[4]? = some 2 ∧ file[5]? = some 1

/-- The file header is read to its end. -/
def Opens : Prop := IsElf file ∧ 64 ≤ file.length ∧ IsSupported file

def sectionCount : Nat := file.numberAt 0x3c 2

def entrySize : Nat := file.numberAt 0x3a 2

/-- Where the header of a section begins. -/
def entryStart (index : Nat) : Nat := file.numberAt 0x28 8 + index * entrySize file

def sectionKind (index : Nat) : Nat := file.numberAt (entryStart file index + 4) 4

def dataStart (index : Nat) : Nat := file.numberAt (entryStart file index + 24) 8

def dataLength (index : Nat) : Nat := file.numberAt (entryStart file index + 32) 8

/-- The octets of a section; those of kind 8 take no room in the file. -/
def sectionData (index : Nat) : Bytes :=
  if sectionKind file index = 8 then [] else file.slice (dataStart file index) (dataLength file index)

/-- The octets of the section that the file header names for the names. -/
def nameTable : Bytes :=
  if file.numberAt 0x3e 2 < sectionCount file then sectionData file (file.numberAt 0x3e 2) else []

/-- The text from the place of a name up to the next zero or the end of the names. -/
def sectionName (index : Nat) : String :=
  String.ofList <| Text.decodeLossy <|
    ((nameTable file).drop (file.numberAt (entryStart file index) 4)).takeWhile (· ≠ 0)

def EntriesFit : Prop := ∀ index < sectionCount file, entryStart file index + 64 ≤ file.length

def DataFits : Prop :=
  ∀ index < sectionCount file, sectionKind file index ≠ 8 →
    dataStart file index + dataLength file index ≤ file.length

instance : Decidable (IsElf file) := inferInstanceAs (Decidable (_ ∧ _))

instance : Decidable (IsSupported file) := inferInstanceAs (Decidable (_ ∧ _))

instance : Decidable (Opens file) := inferInstanceAs (Decidable (_ ∧ _))

instance : Decidable (EntriesFit file) := inferInstanceAs (Decidable (∀ index < _, _))

instance : Decidable (DataFits file) := inferInstanceAs (Decidable (∀ index < _, _))

/-- The file ends too early for a part of this name. -/
def TruncatedIn (part : String) : Prop := ∃ p : FilePart, p.name = part ∧ parse file = .error (.truncated p)

/-- A code object holds what the file tells, section by section. -/
structure Describes (o : CodeObject) : Prop where
  machine : o.machine.toNat = file.numberAt 0x12 2
  count : o.sections.length = sectionCount file
  sections : ∀ index < sectionCount file, ∃ s, o.sections[index]? = some s ∧
    s.addr.toNat = file.numberAt (entryStart file index + 16) 8 ∧ s.data = sectionData file index ∧
    s.name = sectionName file index

end Places

/-! ### The outcome -/

variable {file : Bytes}

theorem isElf_iff : IsElf file ↔ file.take 4 = magic := ⟨fun h => h.2, fun h => ⟨four_le_of_magic h, h⟩⟩

theorem isSupported_iff (h : 64 ≤ file.length) :
    IsSupported file ↔ ¬(file.numberAt 4 1 ≠ 2 ∨ file.numberAt 5 1 ≠ 1) := by
  have hclass : 4 < file.length := by omega
  have horder : 5 < file.length := by omega
  have hc : file[4] ≠ 2 ↔ file.numberAt 4 1 ≠ 2 := Bytes.octet_ne_iff hclass 2
  have ho : file[5] ≠ 1 ↔ file.numberAt 5 1 ≠ 1 := Bytes.octet_ne_iff horder 1
  rw [IsSupported, List.getElem?_eq_getElem hclass, List.getElem?_eq_getElem horder, not_or, ← hc, ← ho]
  simp only [Option.some.injEq, ne_eq, Decidable.not_not]

theorem truncatedIn_iff (part : FilePart) : TruncatedIn file part.name ↔ parse file = .error (.truncated part) := by
  refine ⟨?_, fun h => ⟨part, rfl, h⟩⟩
  rintro ⟨p, hname, h⟩
  have hp : p = part := by
    revert hname
    cases p <;> cases part <;> decide
  rwa [← hp]

/-- The section that the file tells of. -/
def sectionAt (file : Bytes) (index : Nat) : Section :=
  ⟨sectionName file index, UInt64.ofNat (file.numberAt (entryStart file index + 16) 8), sectionData file index⟩

/-- The code object that the file tells of. -/
def described (file : Bytes) : CodeObject :=
  ⟨UInt16.ofNat (file.numberAt 0x12 2), (List.range (sectionCount file)).map (sectionAt file)⟩

theorem describes_described : Describes file (described file) where
  machine := UInt16.toNat_ofNat_of_lt (Bytes.numberAt_lt _ _ _)
  count := by rw [described, List.length_map, List.length_range]
  sections := by
    intro index hindex
    refine ⟨sectionAt file index, ?_, UInt64.toNat_ofNat_of_lt (Bytes.numberAt_lt _ _ _), rfl, rfl⟩
    rw [described, List.getElem?_map, List.getElem?_range hindex]
    rfl

theorem nameOctetsOf_entries :
    nameOctetsOf file ((SectionTable.read file).entries file) (SectionTable.read file).namesIndex =
      nameTable file := by
  rw [nameOctetsOf, SectionTable.entries, List.getElem?_map, nameTable]
  by_cases h : file.numberAt 0x3e 2 < sectionCount file
  · have hsome : (List.range (SectionTable.read file).count)[(SectionTable.read file).namesIndex]? =
        some (file.numberAt 0x3e 2) := List.getElem?_range h
    rw [if_pos h, hsome]
    rfl
  · have hnone : (List.range (SectionTable.read file).count)[(SectionTable.read file).namesIndex]? = none := by
      rw [List.getElem?_eq_none_iff, List.length_range]
      exact Nat.not_lt.mp h
    rw [if_neg h, hnone]
    rfl

theorem map_sectionOf_entries (file : Bytes) :
    ((SectionTable.read file).entries file).map
      (sectionOf file (nameOctetsOf file ((SectionTable.read file).entries file)
        (SectionTable.read file).namesIndex)) = (described file).sections := by
  rw [nameOctetsOf_entries, SectionTable.entries, List.map_map]
  rfl

theorem inside_iff_dataFits :
    (∀ header ∈ (SectionTable.read file).entries file, header.Inside file) ↔ DataFits file := by
  simp only [SectionTable.entries, List.forall_mem_map, List.mem_range]
  refine forall_congr' fun index => imp_congr_right fun _ => ?_
  exact Decidable.or_iff_not_imp_left

/-- The outcomes, each with the numbers that lead to it. -/
inductive Outcome (file : Bytes) : Except CodeObjectError CodeObject → Prop where
  | notElf (h : ¬IsElf file) : Outcome file (.error .notElf)
  | short (helf : IsElf file) (h : file.length < 64) : Outcome file (.error (.truncated .fileHeader))
  | unsupported (helf : IsElf file) (hlong : 64 ≤ file.length) (h : ¬IsSupported file) :
      Outcome file (.error .unsupportedClass)
  | empty (hopens : Opens file) (h : sectionCount file = 0) : Outcome file (.ok (described file))
  | smallEntry (hopens : Opens file) (hcount : sectionCount file ≠ 0) (h : entrySize file < 64) :
      Outcome file (.error (.truncated .sectionEntry))
  | outerEntry (hopens : Opens file) (hsize : 64 ≤ entrySize file) (h : ¬EntriesFit file) :
      Outcome file (.error (.truncated .sectionHeader))
  | outerData (hopens : Opens file) (hsize : 64 ≤ entrySize file) (hentries : EntriesFit file) (h : ¬DataFits file) :
      Outcome file (.error (.truncated .sectionData))
  | whole (hopens : Opens file) (hsize : 64 ≤ entrySize file) (hentries : EntriesFit file) (h : DataFits file) :
      Outcome file (.ok (described file))

theorem outcome_of_opens (hopens : Opens file) : Outcome file (parse file) := by
  have ⟨helf, hlong, hsupported⟩ := hopens
  rw [parse, if_neg (not_not_intro (isElf_iff.mp helf)), if_neg (Nat.not_lt.mpr hlong : ¬_ < headerSize),
    if_neg ((isSupported_iff hlong).mp hsupported)]
  show Outcome file (if sectionCount file = 0 then .ok ⟨(described file).machine, []⟩
    else if entrySize file < 64 then .error (.truncated .sectionEntry)
    else (readSections file (.read file)).map (CodeObject.mk (described file).machine))
  by_cases hcount : sectionCount file = 0
  · have hnone : described file = ⟨(described file).machine, []⟩ := by
      rw [described, hcount]
      rfl
    rw [if_pos hcount, ← hnone]
    exact .empty hopens hcount
  rw [if_neg hcount]
  by_cases hsize : entrySize file < 64
  · rw [if_pos hsize]
    exact .smallEntry hopens hcount hsize
  rw [if_neg hsize, readSections_eq]
  have hsize' : 64 ≤ entrySize file := Nat.not_lt.mp hsize
  split
  · next hentries =>
    split
    · next hinside =>
      rw [map_sectionOf_entries]
      exact .whole hopens hsize' hentries (inside_iff_dataFits.mp hinside)
    · next hinside => exact .outerData hopens hsize' hentries (mt inside_iff_dataFits.mpr hinside)
  · next hentries => exact .outerEntry hopens hsize' hentries

theorem outcome (file : Bytes) : Outcome file (parse file) := by
  by_cases helf : IsElf file
  · by_cases hlong : 64 ≤ file.length
    · by_cases hsupported : IsSupported file
      · exact outcome_of_opens ⟨helf, hlong, hsupported⟩
      · rw [parse, if_neg (not_not_intro (isElf_iff.mp helf)), if_neg (Nat.not_lt.mpr hlong : ¬_ < headerSize),
          if_pos (Decidable.not_not.mp (mt (isSupported_iff hlong).mpr hsupported))]
        exact .unsupported helf hlong hsupported
    · rw [parse, if_neg (not_not_intro (isElf_iff.mp helf)), if_pos (Nat.not_le.mp hlong : _ < headerSize)]
      exact .short helf (Nat.not_le.mp hlong)
  · rw [parse, if_pos (mt isElf_iff.mpr helf)]
    exact .notElf helf

theorem parse_of_whole (hopens : Opens file) (hsize : sectionCount file = 0 ∨ 64 ≤ entrySize file)
    (hentries : EntriesFit file) (hdata : DataFits file) : parse file = .ok (described file) := by
  have houtcome := outcome file
  generalize parse file = found at houtcome ⊢
  obtain ⟨helf, hlong, hsupported⟩ := hopens
  cases houtcome with
  | notElf h => exact absurd helf h
  | short _ h => exact absurd hlong (Nat.not_le.mpr h)
  | unsupported _ _ h => exact absurd hsupported h
  | empty => rfl
  | smallEntry _ hcount h => exact absurd (hsize.resolve_left hcount) (Nat.not_le.mpr h)
  | outerEntry _ _ h => exact absurd hentries h
  | outerData _ _ _ h => exact absurd hdata h
  | whole => rfl

/-- Which outcome a file has, told by the numbers at their places; reading it by words comes to the same, and no
    octet, no range and no sum is missing on the way. -/
theorem reading_exact (file : Bytes) (short : file.length < Guarded.longest) :
    (parse file = .error .notElf ↔ ¬IsElf file) ∧
    (TruncatedIn file "ELF header" ↔ IsElf file ∧ file.length < 64) ∧
    (parse file = .error .unsupportedClass ↔ IsElf file ∧ 64 ≤ file.length ∧ ¬IsSupported file) ∧
    (TruncatedIn file "section header entry" ↔ Opens file ∧ sectionCount file ≠ 0 ∧ entrySize file < 64) ∧
    (TruncatedIn file "section header" ↔ Opens file ∧ 64 ≤ entrySize file ∧
      ∃ index < sectionCount file, file.length < entryStart file index + 64) ∧
    (TruncatedIn file "section data" ↔ Opens file ∧ 64 ≤ entrySize file ∧ EntriesFit file ∧
      ∃ index < sectionCount file, sectionKind file index ≠ 8 ∧
        file.length < dataStart file index + dataLength file index) ∧
    ((∃ o, parse file = .ok o ∧ Describes file o) ↔
      Opens file ∧ (sectionCount file = 0 ∨ 64 ≤ entrySize file ∧ EntriesFit file ∧ DataFits file)) ∧
    Guarded.parse file = Guarded.ofExcept (parse file) := by
  have hentries : ¬EntriesFit file ↔ ∃ index < sectionCount file, file.length < entryStart file index + 64 := by
    simp [EntriesFit]
  have hdata : ¬DataFits file ↔ ∃ index < sectionCount file, sectionKind file index ≠ 8 ∧
      file.length < dataStart file index + dataLength file index := by
    simp [DataFits]
  have hheader : TruncatedIn file "ELF header" ↔ _ := truncatedIn_iff .fileHeader
  have hentry : TruncatedIn file "section header entry" ↔ _ := truncatedIn_iff .sectionEntry
  have hsection : TruncatedIn file "section header" ↔ _ := truncatedIn_iff .sectionHeader
  have hoctets : TruncatedIn file "section data" ↔ _ := truncatedIn_iff .sectionData
  have hnone : sectionCount file = 0 → EntriesFit file ∧ DataFits file := by
    intro hcount
    simp [EntriesFit, DataFits, hcount]
  have hfaultless := Guarded.parse_eq short
  have houtcome := outcome file
  rw [← hentries, ← hdata, hheader, hentry, hsection, hoctets]
  generalize parse file = found at houtcome hfaultless ⊢
  cases houtcome with
  | notElf h => simp [Opens, h, hfaultless]
  | short helf h =>
    have hlong : ¬64 ≤ file.length := Nat.not_le.mpr h
    simp [Opens, helf, h, hlong, hfaultless]
  | unsupported helf hlong h => simp [Opens, helf, hlong, h, hfaultless]
  | empty hopens h =>
    obtain ⟨helf, hlong, hsupported⟩ := hopens
    simp [Opens, helf, hlong, hsupported, h, hnone h, describes_described, hfaultless]
  | smallEntry hopens hcount h =>
    obtain ⟨helf, hlong, hsupported⟩ := hopens
    have hsize : ¬64 ≤ entrySize file := Nat.not_le.mpr h
    simp [Opens, helf, hlong, hsupported, hcount, h, hsize, hfaultless]
  | outerEntry hopens hsize h =>
    obtain ⟨helf, hlong, hsupported⟩ := hopens
    have hcount : sectionCount file ≠ 0 := fun hc => h (hnone hc).1
    simp [Opens, helf, hlong, hsupported, hcount, hsize, h, hfaultless]
  | outerData hopens hsize hfit h =>
    obtain ⟨helf, hlong, hsupported⟩ := hopens
    have hcount : sectionCount file ≠ 0 := fun hc => h (hnone hc).2
    simp [Opens, helf, hlong, hsupported, hcount, hsize, hfit, h, hfaultless]
  | whole hopens hsize hfit h =>
    obtain ⟨helf, hlong, hsupported⟩ := hopens
    simp [Opens, helf, hlong, hsupported, hsize, hfit, h, describes_described, hfaultless]

/-- A file whose only section begins at the greatest word and so ends where no word leads. -/
def beyondWords : Bytes :=
  headerOctets 0xe0 64 1 ++ SectionHeader.octets ⟨0, withData, 0, UInt64.size - 1, 1⟩

theorem beyondWords_exact :
    beyondWords.length < Guarded.longest ∧ TruncatedIn beyondWords "section data" ∧
      Guarded.parse beyondWords = Guarded.ofExcept (parse beyondWords) := by
  have short : beyondWords.length < Guarded.longest := by decide +kernel
  have hopens : Opens beyondWords ∧ 64 ≤ entrySize beyondWords ∧ EntriesFit beyondWords := by decide +kernel
  have houter : 0 < sectionCount beyondWords ∧ sectionKind beyondWords 0 ≠ 8 ∧
      beyondWords.length < dataStart beyondWords 0 + dataLength beyondWords 0 := by decide +kernel
  obtain ⟨-, -, -, -, -, hdata, -, hwords⟩ := reading_exact beyondWords short
  exact ⟨short, hdata.mpr ⟨hopens.1, hopens.2.1, hopens.2.2, 0, houter⟩, hwords⟩

end GpuListing.CodeObject
