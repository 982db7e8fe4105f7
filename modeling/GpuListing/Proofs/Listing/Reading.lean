import GpuListing.Listing.Line
import GpuListing.Proofs.Text.Numerals

/-! # Data directives read back

The text of a data directive tells its octets: a word has eight hexadecimal digits, and octets have two each,
with a comma and a blank between. `directive?_wordText` and `directive?_octetsText` say that what a listing
writes is read back. -/

namespace GpuListing

/-- The octets of a list of octets in hexadecimal. -/
def octetList? : List Char → Option Bytes
  | ['0', 'x', a, b] => (Text.ofDigits? 16 [a, b]).map fun n => [UInt8.ofNat n]
  | '0' :: 'x' :: a :: b :: ',' :: ' ' :: rest => do
    let n ← Text.ofDigits? 16 [a, b]
    let bytes ← octetList? rest
    return UInt8.ofNat n :: bytes
  | _ => none

/-- The octets that a data directive stands for. -/
def directive? : List Char → Option Bytes
  | '.' :: 'l' :: 'o' :: 'n' :: 'g' :: ' ' :: '0' :: 'x' :: digits =>
    if digits.length = 8 then (Text.ofDigits? 16 digits).map (Bytes.digits 4) else none
  | '.' :: 'b' :: 'y' :: 't' :: 'e' :: ' ' :: octets => octetList? octets
  | _ => none

/-- The two digits of an octet write it. -/
theorem ofDigits?_octet (b : UInt8) : Text.ofDigits? 16 (Text.hexFixed 2 b.toNat) = some b.toNat := by
  have hb : b.toNat < Nat.pow 16 2 := b.toNat_lt
  rw [Text.ofDigits?_hexFixed, Nat.mod_eq_of_lt hb]

theorem toList_octetText (b : UInt8) : (octetText b).toList = '0' :: 'x' :: Text.hexFixed 2 b.toNat := by
  simp [octetText]

/-- A list of octets is read back. -/
theorem octetList?_intercalate {bytes : Bytes} (h : bytes ≠ []) :
    octetList? ([',', ' '].intercalate (bytes.map fun b => (octetText b).toList)) = some bytes := by
  induction bytes with
  | nil => exact absurd rfl h
  | cons b rest ih =>
    have hb := ofDigits?_octet b
    obtain ⟨x, y, hxy⟩ : ∃ x y, Text.hexFixed 2 b.toNat = [x, y] := ⟨_, _, rfl⟩
    rw [hxy] at hb
    cases rest with
    | nil => simp [toList_octetText, hxy, octetList?, hb]
    | cons c more =>
      have ih := ih (by simp)
      rw [List.map_cons] at ih
      rw [List.map_cons, List.map_cons, List.intercalate_cons_cons, toList_octetText b, hxy]
      simp only [List.cons_append, List.nil_append, octetList?, hb, ih, Option.bind_eq_bind, Option.bind_some,
        Option.pure_def, UInt8.ofNat_toNat]

/-- A word is read back from its directive. -/
theorem directive?_wordText {word : Nat} (h : word < UInt32.size) :
    directive? (Decoder.wordText word).toList = some (Bytes.digits 4 word) := by
  have htext : (Decoder.wordText word).toList =
      '.' :: 'l' :: 'o' :: 'n' :: 'g' :: ' ' :: '0' :: 'x' :: Text.hexFixed 8 word := by
    simp [Decoder.wordText]
  have hword : word < Nat.pow 16 8 := h
  rw [htext, directive?, Text.length_hexFixed, Text.ofDigits?_hexFixed, Nat.mod_eq_of_lt hword]
  rfl

theorem toList_octetsText (bytes : Bytes) :
    (octetsText bytes).toList =
      ".byte ".toList ++ [',', ' '].intercalate (bytes.map fun b => (octetText b).toList) := by
  simp [octetsText, String.toList_intercalate, Function.comp_def]

/-- Octets are read back from their directive. -/
theorem directive?_octetsText {bytes : Bytes} (h : bytes ≠ []) :
    directive? (octetsText bytes).toList = some bytes := by
  rw [toList_octetsText]
  exact octetList?_intercalate h

end GpuListing
