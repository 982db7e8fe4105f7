import GpuListing.CodeObject.Basic

/-! # Code objects as files

A file with given sections: the file header, the octets of the sections one after another, the names, and the
table of section headers at a multiple of eight octets. The table begins with a section header of zeros, which
counts as a section without a name, and ends with the one of the names. -/

namespace GpuListing

/-- Octets that are zero. -/
def Bytes.zeros (length : Nat) : Bytes := List.replicate length 0

/-- The octets of a section header. -/
def SectionHeader.octets (h : SectionHeader) : Bytes :=
  .digits 4 h.nameStart ++ .digits 4 h.kind ++ .zeros 8 ++ .digits 8 h.addr ++ .digits 8 h.start ++
    .digits 8 h.length ++ .zeros 24

/-- The section header of zeros. -/
def SectionHeader.blank : SectionHeader := ⟨0, 0, 0, 0, 0⟩

theorem SectionHeader.length_octets (h : SectionHeader) : h.octets.length = size := by
  simp [octets, Bytes.zeros, size]

namespace CodeObject

/-- The octets of a file header whose table of section headers has a position and a number of entries, the
    last of which is the one of the names. -/
def headerOctets (machine : UInt16) (start count : Nat) : Bytes :=
  magic ++ [2, 1, 1] ++ .zeros 11 ++ .digits 2 machine.toNat ++ .zeros 20 ++ .digits 8 start ++ .zeros 4 ++
    .digits 2 headerSize ++ .zeros 4 ++ .digits 2 SectionHeader.size ++ .digits 2 count ++ .digits 2 (count - 1)

/-- The name of the section that holds the names. -/
def namesName : String := ".shstrtab"

/-- The kind of sections whose octets are in the file. -/
def withData : Nat := 1

/-- The kind of sections that hold names. -/
def withNames : Nat := 3

/-- A name, and the zero that ends it. -/
def terminated (name : String) : Bytes := Text.octets name.toList ++ [0]

/-- The octets of the names; the first one is zero and ends the empty name. -/
def nameOctets (names : List String) : Bytes := 0 :: names.flatMap terminated

/-- The headers of sections whose names and whose octets begin at two positions, and the two positions after
    them. -/
def headersFrom : (nameStart start : Nat) → List Section → List SectionHeader × Nat × Nat
  | nameStart, start, [] => ([], nameStart, start)
  | nameStart, start, s :: rest =>
    let (headers, last) := headersFrom (nameStart + (terminated s.name).length) (start + s.data.length) rest
    (⟨nameStart, withData, s.addr.toNat, start, s.data.length⟩ :: headers, last)

/-- The number of zeros up to a multiple of eight. -/
def padding (length : Nat) : Nat := (8 - length % 8) % 8

/-- The names of the sections of a file. -/
def imageNames (sections : List Section) : Bytes := nameOctets (sections.map Section.name ++ [namesName])

/-- The octets of the sections of a file, the names last. -/
def imageBody (sections : List Section) : Bytes := sections.flatMap Section.data ++ imageNames sections

/-- The section headers of a file. -/
def imageHeaders (sections : List Section) : List SectionHeader :=
  let (headers, nameStart, start) := headersFrom 1 headerSize sections
  .blank :: headers ++ [⟨nameStart, withNames, 0, start, (imageNames sections).length⟩]

/-- The file with the given sections. -/
def image (machine : UInt16) (sections : List Section) : Bytes :=
  let last := headerSize + (imageBody sections).length
  let gap := padding last
  headerOctets machine (last + gap) (sections.length + 2) ++ imageBody sections ++ .zeros gap ++
    (imageHeaders sections).flatMap SectionHeader.octets

theorem length_headerOctets (machine : UInt16) (start count : Nat) :
    (headerOctets machine start count).length = headerSize := by
  simp [headerOctets, magic, Bytes.zeros, headerSize]

theorem length_headersFrom (nameStart start : Nat) (sections : List Section) :
    (headersFrom nameStart start sections).1.length = sections.length := by
  induction sections generalizing nameStart start with
  | nil => rfl
  | cons s rest ih => simp [headersFrom, ih]

theorem length_imageHeaders (sections : List Section) :
    (imageHeaders sections).length = sections.length + 2 := by
  simp [imageHeaders, length_headersFrom]

end CodeObject

end GpuListing
