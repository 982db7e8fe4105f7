/-! # Bytes

Files and sections are lists of octets. Numbers in them are little-endian: `number` reads one, `digits`
writes one in a given width, and `number_digits` and `digits_number` say that the two are inverse. -/

namespace GpuListing

/-- A string of octets. -/
abbrev Bytes := List UInt8

namespace Bytes

/-- The `length` octets from position `start` on, fewer where the string ends before. -/
def slice (bytes : Bytes) (start length : Nat) : Bytes := (bytes.drop start).take length

/-! ### Little-endian numbers -/

/-- The number whose octets, the lowest first, are `bytes`. -/
def number : Bytes → Nat
  | [] => 0
  | b :: rest => b.toNat + 256 * number rest

/-- The lowest `width` octets of a number, the lowest first. -/
def digits : (width : Nat) → Nat → Bytes
  | 0, _ => []
  | width + 1, n => UInt8.ofNat n :: digits width (n / 256)

/-- The number in the `width` octets from position `start` on. -/
def numberAt (bytes : Bytes) (start width : Nat) : Nat := number (bytes.slice start width)

@[simp] theorem length_digits (width n : Nat) : (digits width n).length = width := by
  induction width generalizing n with
  | zero => rfl
  | succ width ih => simp [digits, ih]

theorem number_lt (bytes : Bytes) : number bytes < Nat.pow 256 bytes.length := by
  rw [Nat.pow_eq]
  induction bytes with
  | nil => decide
  | cons b rest ih =>
    have hb := b.toNat_lt
    simp only [number, List.length_cons, Nat.pow_succ]
    omega

/-- A number that fits its width reads back. -/
theorem number_digits {width n : Nat} (h : n < Nat.pow 256 width) : number (digits width n) = n := by
  rw [Nat.pow_eq] at h
  induction width generalizing n with
  | zero => simp only [Nat.pow_zero] at h; simp only [digits, number]; omega
  | succ width ih =>
    have hn : n / 256 < 256 ^ width := by
      rw [Nat.div_lt_iff_lt_mul (by decide)]; rwa [Nat.pow_succ] at h
    simp only [digits, number, ih hn, UInt8.toNat_ofNat']
    omega

/-- Octets are the digits of their number. -/
theorem digits_number (bytes : Bytes) : digits bytes.length (number bytes) = bytes := by
  induction bytes with
  | nil => rfl
  | cons b rest ih =>
    have hb := b.toNat_lt
    have hq : (b.toNat + 256 * number rest) / 256 = number rest := by omega
    have hr : UInt8.ofNat (b.toNat + 256 * number rest) = b := by
      apply UInt8.toNat_inj.mp; rw [UInt8.toNat_ofNat']; omega
    simp only [List.length_cons, digits, number, hq, hr, ih]

end Bytes

end GpuListing
