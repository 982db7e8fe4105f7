/-! # Ranges of code points

Classes of characters are tables of ranges, each given by its first and its last code point. -/

namespace GpuListing.Text

/-- A range of code points: the first and the last one in it. -/
abbrev CodeRange := Nat × Nat

/-- Some range of the table holds the character. -/
def covered (table : List CodeRange) (c : Char) : Bool :=
  table.any fun range => range.1 ≤ c.toNat && c.toNat ≤ range.2

end GpuListing.Text
