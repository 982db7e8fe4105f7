import GpuListing.Bytes

/-! # Cursors

A cursor reads consecutive little-endian fields: each reading takes octets from the front of those that are
left. -/

namespace GpuListing

/-- A reading of octets: what it gives, and the octets that are left. -/
abbrev Cursor := StateM Bytes

namespace Cursor

/-- The number in the next octets. -/
def number (width : Nat) : Cursor Nat := fun bytes => (Bytes.number (bytes.take width), bytes.drop width)

/-- Leaves octets out. -/
def skip (width : Nat) : Cursor Unit := fun bytes => ((), bytes.drop width)

/-- A field of 8 bits. -/
def word8 : Cursor UInt8 := UInt8.ofNat <$> number 1

/-- A field of 16 bits. -/
def word16 : Cursor UInt16 := UInt16.ofNat <$> number 2

/-- A field of 32 bits. -/
def word32 : Cursor UInt32 := UInt32.ofNat <$> number 4

/-- A field of 64 bits. -/
def word64 : Cursor UInt64 := UInt64.ofNat <$> number 8

/-- A field of 32 bits in two's complement. -/
def signed32 : Cursor Int32 := UInt32.toInt32 <$> word32

/-- A field of 64 bits in two's complement. -/
def signed64 : Cursor Int64 := UInt64.toInt64 <$> word64

/-- Digits in front are read, and what follows them is left. -/
theorem run_number {width n : Nat} (rest : Bytes) (h : n < Nat.pow 256 width) :
    (number width).run (Bytes.digits width n ++ rest) = (n, rest) := by
  have htake : (Bytes.digits width n ++ rest).take width = Bytes.digits width n :=
    List.take_left' (Bytes.length_digits width n)
  have hdrop : (Bytes.digits width n ++ rest).drop width = rest :=
    List.drop_left' (Bytes.length_digits width n)
  simp only [number, StateT.run, htake, hdrop, Bytes.number_digits h]

end Cursor

end GpuListing
