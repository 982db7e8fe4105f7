import GpuListing.Text.Utf8

/-! # Code objects

A code object is an ELF file for 64-bit little-endian machines: a header of 64 octets, a table of section
headers, and the octets of the sections. One section holds the names of all. Everything is read by position,
and every sum of positions is exact, so a field that leads outside the file is found to do so. -/

namespace GpuListing

/-- The part of a file that lies outside its bounds. -/
inductive FilePart where
  | fileHeader
  | sectionEntry
  | sectionHeader
  | sectionData
  deriving DecidableEq

/-- The name of a part in messages. -/
def FilePart.name : FilePart → String
  | fileHeader => "ELF header"
  | sectionEntry => "section header entry"
  | sectionHeader => "section header"
  | sectionData => "section data"

/-- Why a code object, or kernel code in it, cannot be read. -/
inductive CodeObjectError where
  | notElf
  | unsupportedClass
  | truncated (part : FilePart)
  | missingSection (name : String)
  /-- Kernel code of this length has no room for its header. -/
  | shortKernelCode (length : Nat)
  deriving DecidableEq

/-- The message for people. -/
def CodeObjectError.message : CodeObjectError → String
  | notElf => "not an ELF file"
  | unsupportedClass => "not a 64-bit little-endian ELF"
  | truncated part => part.name ++ " out of bounds"
  | missingSection name => "missing " ++ name ++ " section"
  | shortKernelCode length => "kernel code must be at least 256 bytes long (got " ++ toString length ++ ")"

/-- A section: its name, the address of its first octet, and its octets. -/
structure Section where
  name : String
  addr : UInt64
  data : Bytes
  deriving DecidableEq

/-- What is kept of a code object: the number of its machine, and its sections in the order of the table. -/
structure CodeObject where
  machine : UInt16
  sections : List Section
  deriving DecidableEq

/-- A section header: where the name is among the names, and where the octets are in the file. -/
structure SectionHeader where
  nameStart : Nat
  kind : Nat
  addr : Nat
  start : Nat
  length : Nat
  deriving DecidableEq

namespace SectionHeader

/-- The length of a section header. -/
def size : Nat := 64

/-- The kind of sections that take no room in the file. -/
def withoutData : Nat := 8

/-- The header at a position of a file. -/
def readAt (file : Bytes) (start : Nat) : SectionHeader where
  nameStart := file.numberAt start 4
  kind := file.numberAt (start + 4) 4
  addr := file.numberAt (start + 16) 8
  start := file.numberAt (start + 24) 8
  length := file.numberAt (start + 32) 8

/-- The octets of the section. -/
def data (header : SectionHeader) (file : Bytes) : Except CodeObjectError Bytes :=
  if header.kind = withoutData then .ok []
  else if header.start + header.length ≤ file.length then .ok (file.slice header.start header.length)
  else .error (.truncated .sectionData)

end SectionHeader

/-- The name that starts at a position of the names and ends before the next zero; empty beyond the names. -/
def nameAt (names : Bytes) (start : Nat) : String :=
  String.ofList (Text.decodeLossy ((names.drop start).takeWhile (· ≠ 0)))

namespace CodeObject

/-- The four octets that begin every ELF file. -/
def magic : Bytes := [0x7f, 0x45, 0x4c, 0x46]

/-- The length of the file header. -/
def headerSize : Nat := 64

/-- What the file header tells of the section headers: where the table is, how long an entry of it is, how
    many there are, and which section holds the names. -/
structure SectionTable where
  start : Nat
  entrySize : Nat
  count : Nat
  namesIndex : Nat

/-- The section table of a file. -/
def SectionTable.read (file : Bytes) : SectionTable where
  start := file.numberAt 0x28 8
  entrySize := file.numberAt 0x3a 2
  count := file.numberAt 0x3c 2
  namesIndex := file.numberAt 0x3e 2

/-- The section headers of a file. -/
def SectionTable.headers (table : SectionTable) (file : Bytes) : Except CodeObjectError (List SectionHeader) :=
  (List.range table.count).mapM fun index =>
    let start := table.start + index * table.entrySize
    if start + SectionHeader.size ≤ file.length then .ok (SectionHeader.readAt file start)
    else .error (.truncated .sectionHeader)

/-- The octets that hold the names; none if there is no section of that number. -/
def names (file : Bytes) (headers : List SectionHeader) (index : Nat) : Except CodeObjectError Bytes :=
  match headers[index]? with
  | none => .ok []
  | some header => header.data file

/-- The sections of a file. -/
def readSections (file : Bytes) (table : SectionTable) : Except CodeObjectError (List Section) := do
  let headers ← table.headers file
  let names ← names file headers table.namesIndex
  headers.mapM fun header => do
    return ⟨nameAt names header.nameStart, UInt64.ofNat header.addr, ← header.data file⟩

/-- The code object in a file. -/
def parse (file : Bytes) : Except CodeObjectError CodeObject :=
  if file.take 4 ≠ magic then .error .notElf
  else if file.length < headerSize then .error (.truncated .fileHeader)
  else if file.numberAt 4 1 ≠ 2 ∨ file.numberAt 5 1 ≠ 1 then .error .unsupportedClass
  else
    let machine := UInt16.ofNat (file.numberAt 0x12 2)
    let table := SectionTable.read file
    if table.count = 0 then .ok ⟨machine, []⟩
    else if table.entrySize < SectionHeader.size then .error (.truncated .sectionEntry)
    else (readSections file table).map fun sections => ⟨machine, sections⟩

/-- The first section of a name. -/
def section? (o : CodeObject) (name : String) : Option Section := o.sections.find? fun s => s.name = name

/-- The section with the machine code. -/
def text (o : CodeObject) : Except CodeObjectError Section :=
  match o.section? ".text" with
  | some s => .ok s
  | none => .error (.missingSection ".text")

/-- The section with the machine code of a file. -/
def readText (file : Bytes) : Except CodeObjectError Section := parse file >>= text

end CodeObject

end GpuListing
