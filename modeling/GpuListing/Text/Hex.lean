/-! # Hexadecimal text

Numbers in lower-case hexadecimal digits, the highest digit first. -/

namespace GpuListing.Text

/-- The fewest hexadecimal digits of a number; zero has one digit. -/
def hex (n : Nat) : List Char := Nat.toDigits 16 n

/-- Exactly `width` hexadecimal digits: the lowest ones of a number. -/
def hexFixed : (width n : Nat) → List Char
  | 0, _ => []
  | width + 1, n => hexFixed width (n / 16) ++ [Nat.digitChar (n % 16)]

@[simp] theorem length_hexFixed (width n : Nat) : (hexFixed width n).length = width := by
  induction width generalizing n with
  | zero => rfl
  | succ width ih => simp [hexFixed, ih]

end GpuListing.Text
