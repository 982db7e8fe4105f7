import GpuListing.Text.CodeRange

/-! # White space

The property White_Space of Unicode, and texts without the white space at their ends. -/

namespace GpuListing.Text

/-- The code points with the property White_Space. -/
def blankRanges : List CodeRange :=
  [(0x9, 0xd), (0x20, 0x20), (0x85, 0x85), (0xa0, 0xa0), (0x1680, 0x1680), (0x2000, 0x200a), (0x2028, 0x2029),
   (0x202f, 0x202f), (0x205f, 0x205f), (0x3000, 0x3000)]

/-- A character with the property White_Space. -/
def isBlank (c : Char) : Bool := covered blankRanges c

/-- The text without its leading white space. -/
def trimStart (text : List Char) : List Char := text.dropWhile isBlank

/-- The text without its trailing white space. -/
def trimEnd (text : List Char) : List Char := (text.reverse.dropWhile isBlank).reverse

/-- The text without the white space at both ends. -/
def trim (text : List Char) : List Char := trimEnd (trimStart text)

/-- A text that neither begins nor ends with white space. -/
def Bare (text : List Char) : Prop := (∀ c ∈ text.head?, isBlank c = false) ∧ ∀ c ∈ text.getLast?, isBlank c = false

theorem bare_iff {text : List Char} :
    Bare text ↔ (text.head?.all fun c => !isBlank c) = true ∧ (text.getLast?.all fun c => !isBlank c) = true := by
  simp only [Bare, Option.all_eq_true, Bool.not_eq_true', Option.mem_def]

-- Looks at the ends only: a search over all characters would be another way to decide it.
instance (text : List Char) : Decidable (Bare text) := decidable_of_iff _ bare_iff.symm

/-- The text is the other one without the white space at both ends. -/
def Trims (text core : List Char) : Prop :=
  ∃ front back, text = front ++ core ++ back ∧ (∀ c ∈ front, isBlank c = true) ∧ (∀ c ∈ back, isBlank c = true) ∧
    Bare core

/-- A number of blanks. -/
def blanks (n : Nat) : List Char := List.replicate n ' '

end GpuListing.Text
