import GpuListing.KernelArgs.Layout

/-! # Cosmetic edits

Changes to the text of a note that do not change what it tells. They are made on the octets after the first line
feed, which need not be UTF-8: a line is what lies between line feeds, and the last one is empty if a line feed ends
the octets. -/

namespace GpuListing

/-- The error with another number for a line. -/
def KernelArgsError.renumbered (f : Nat → Nat) : KernelArgsError → KernelArgsError
  | orphanField line => orphanField (f line)
  | error => error

namespace KernelArgs

/-- The text of a line. -/
def lineText (line : Bytes) : List Char := Text.decodeLossy (line.filter (· ≠ 0))

/-- Nothing but white space. -/
structure BlankLine (line : Bytes) : Prop where
  feed : 0x0a ∉ line
  space : ∀ c ∈ lineText line, Text.isBlank c = true

/-- A number of blanks in front of each line. Nothing after the last line feed is no line. -/
def indented (n : Nat) : List Bytes → List Bytes
  | [] => []
  | [[]] => [[]]
  | line :: rest => (List.replicate n 0x20 ++ line) :: indented n rest

/-- Further lines among those from an index on: `gaps` gives the ones in front of each index, and after the last
    line the ones for the index that would follow. -/
def spread (gaps : Nat → List Bytes) : (index : Nat) → List Bytes → List Bytes
  | index, [] => gaps index
  | index, line :: rest => gaps index ++ line :: spread gaps (index + 1) rest

/-- How many lines are put in front of a line that has a number, counted from one, before they are. -/
def added (gaps : Nat → List Bytes) : (number : Nat) → Nat
  | 0 => 0
  | number + 1 => added gaps number + (gaps number).length

end KernelArgs

end GpuListing
