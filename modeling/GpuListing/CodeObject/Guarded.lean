import GpuListing.CodeObject.Basic

/-! # Reading by words

`CodeObject.parse` reads at positions of any size. A machine has words of 64 bits for them, and an octet outside
the file, a range outside it, or a sum that no word holds is the end of the reading. Here the same file is read
that way: sums and products whose size nothing bounds are tested first, all others are taken as they come, and
what goes wrong with those is a fault. -/

namespace GpuListing

/-- What cuts a reading off. -/
inductive Fault where
  /-- An octet that is not there. -/
  | octet
  /-- A range that is not there. -/
  | range
  /-- A sum that no word holds. -/
  | sum
  deriving DecidableEq

/-- A reading ends with what it finds or with an error to tell, unless a fault cuts it off. -/
abbrev Guarded := ExceptT CodeObjectError (Except Fault)

namespace Guarded

/-- A reading without faults. -/
def ofExcept {α : Type} (found : Except CodeObjectError α) : Guarded α := ExceptT.mk (.ok found)

/-- A reading that is cut off. -/
def fault {α : Type} (f : Fault) : Guarded α := ExceptT.mk (.error f)

/-! ### Words -/

/-- The sum of two words, if a word holds it. -/
def add? (a b : UInt64) : Option UInt64 := if a.toNat + b.toNat < UInt64.size then some (a + b) else none

/-- The product of two words, if a word holds it. -/
def mul? (a b : UInt64) : Option UInt64 := if a.toNat * b.toNat < UInt64.size then some (a * b) else none

/-- The sum of two words, or the greatest word if it is less. -/
def addUpTo (a b : UInt64) : UInt64 := (add? a b).getD (UInt64.ofNat (UInt64.size - 1))

/-- The sum of two words. -/
def add (a b : UInt64) : Guarded UInt64 :=
  match add? a b with
  | some sum => pure sum
  | none => fault .sum

/-! ### Octets -/

/-- The octets from one position up to another one, if the file has them. -/
def range? (file : Bytes) (start stop : UInt64) : Option Bytes :=
  if start ≤ stop ∧ stop.toNat ≤ file.length then some (file.slice start.toNat (stop.toNat - start.toNat)) else none

/-- The octets from one position up to another one. -/
def range (file : Bytes) (start stop : UInt64) : Guarded Bytes :=
  match range? file start stop with
  | some octets => pure octets
  | none => fault .range

/-- The octet at a position. -/
def octetAt (file : Bytes) (position : UInt64) : Guarded UInt8 :=
  match file[position.toNat]? with
  | some octet => pure octet
  | none => fault .octet

/-- The number in the octets from a position on. -/
def numberAt (file : Bytes) (start width : UInt64) : Guarded Nat := do
  let octets ← range file start (← add start width)
  return Bytes.number octets

/-- The number in the two octets from a position on. -/
def pairAt (file : Bytes) (start : UInt64) : Guarded Nat := do
  let low ← octetAt file start
  let high ← octetAt file (← add start 1)
  return Bytes.number [low, high]

/-! ### Code objects -/

/-- The section header at a position. -/
def headerAt (file : Bytes) (start : UInt64) : Guarded SectionHeader := do
  let nameStart ← numberAt file start 4
  let kind ← numberAt file (← add start 4) 4
  let addr ← numberAt file (← add start 16) 8
  let offset ← numberAt file (← add start 24) 8
  let length ← numberAt file (← add start 32) 8
  return ⟨nameStart, kind, addr, offset, length⟩

/-- Where a section header is, if the file has room for it there. -/
def entryAt? (file : Bytes) (table : CodeObject.SectionTable) (index : Nat) : Option UInt64 :=
  ((mul? (UInt64.ofNat table.entrySize) (UInt64.ofNat index)).bind fun distance =>
    add? distance (UInt64.ofNat table.start)).filter fun start => addUpTo start 64 ≤ UInt64.ofNat file.length

/-- The section headers. -/
def headers (file : Bytes) (table : CodeObject.SectionTable) : Guarded (List SectionHeader) :=
  (List.range table.count).mapM fun index =>
    match entryAt? file table index with
    | some start => headerAt file start
    | none => throw (.truncated .sectionHeader)

/-- The octets that a section header leads to, if the file has them. -/
def stored? (file : Bytes) (header : SectionHeader) : Option Bytes :=
  (add? (UInt64.ofNat header.start) (UInt64.ofNat header.length)).bind fun stop =>
    range? file (UInt64.ofNat header.start) stop

/-- The octets of a section. -/
def data (file : Bytes) (header : SectionHeader) : Guarded Bytes :=
  if header.kind = SectionHeader.withoutData then pure []
  else
    match stored? file header with
    | some octets => pure octets
    | none => throw (.truncated .sectionData)

/-- The name that starts at a position of the names. -/
def nameAt (names : Bytes) (start : UInt64) : Guarded String :=
  match range? names start (UInt64.ofNat names.length) with
  | none => pure ""
  | some tail => do
    let octets ← range tail 0 (UInt64.ofNat (tail.findIdx (· = 0)))
    return String.ofList (Text.decodeLossy octets)

/-- The octets that hold the names. -/
def names (file : Bytes) (headers : List SectionHeader) (index : Nat) : Guarded Bytes :=
  match headers[index]? with
  | none => pure []
  | some header => data file header

/-- The sections. -/
def sections (file : Bytes) (table : CodeObject.SectionTable) : Guarded (List Section) := do
  let headers ← headers file table
  let names ← names file headers table.namesIndex
  headers.mapM fun header => do
    let name ← nameAt names (UInt64.ofNat header.nameStart)
    return ⟨name, UInt64.ofNat header.addr, ← data file header⟩

/-- What the file header leads to. -/
def afterIdent (file : Bytes) : Guarded CodeObject := do
  let machine ← pairAt file 0x12
  let start ← numberAt file 0x28 8
  let entrySize ← pairAt file 0x3a
  let count ← pairAt file 0x3c
  let namesIndex ← pairAt file 0x3e
  if count = 0 then return ⟨UInt16.ofNat machine, []⟩
  else if entrySize < SectionHeader.size then throw (.truncated .sectionEntry)
  else return ⟨UInt16.ofNat machine, ← sections file ⟨start, entrySize, count, namesIndex⟩⟩

/-- What follows the test of the first octets. -/
def afterMagic (file : Bytes) : Guarded CodeObject :=
  if UInt64.ofNat file.length < 64 then throw (.truncated .fileHeader)
  else do
    if (← octetAt file 4) ≠ 2 then throw .unsupportedClass
    else if (← octetAt file 5) ≠ 1 then throw .unsupportedClass
    else afterIdent file

/-- The code object in a file. -/
def parse (file : Bytes) : Guarded CodeObject :=
  if UInt64.ofNat file.length < 4 then throw .notElf
  else do
    if (← range file 0 4) ≠ CodeObject.magic then throw .notElf else afterMagic file

end Guarded

end GpuListing
