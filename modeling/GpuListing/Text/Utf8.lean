import GpuListing.Bytes

/-! # UTF-8

Texts as octets and octets as texts. A reader goes over the octets one by one and holds at most one
unfinished character, with the range in which the next octet must lie: the ranges exclude overlong forms,
surrogates and code points above U+10FFFF. An octet outside the range ends the unfinished character as a
fault, so a fault is a longest part of the octets that could still have begun a character. -/

namespace GpuListing.Text

/-- The octets of a text. -/
def octets (text : List Char) : Bytes := text.flatMap String.utf8EncodeChar

/-- An unfinished character: its bits so far, the least and the greatest octet that may follow, and how many
    octets are due after that one. -/
structure Pending where
  bits : Nat
  least : UInt8
  greatest : UInt8
  more : Nat

/-- What an octet begins. -/
inductive Lead where
  | whole (c : Char)
  | opens (pending : Pending)
  | fault

/-- What an octet begins where a character may begin. -/
def Lead.of (b : UInt8) : Lead :=
  if b < 0x80 then .whole (Char.ofNat b.toNat)
  else if b < 0xc2 then .fault
  else if b < 0xe0 then .opens ⟨b.toNat - 0xc0, 0x80, 0xbf, 0⟩
  else if b < 0xf0 then
    .opens ⟨b.toNat - 0xe0, if b = 0xe0 then 0xa0 else 0x80, if b = 0xed then 0x9f else 0xbf, 1⟩
  else if b < 0xf5 then
    .opens ⟨b.toNat - 0xf0, if b = 0xf0 then 0x90 else 0x80, if b = 0xf4 then 0x8f else 0xbf, 2⟩
  else .fault

/-- The readings that an octet completes where a character may begin, and the character left unfinished. A
    reading is a character, or nothing for a fault. -/
def readLead (b : UInt8) : List (Option Char) × Option Pending :=
  match Lead.of b with
  | .whole c => ([some c], none)
  | .opens pending => ([], some pending)
  | .fault => ([none], none)

/-- The readings that an octet completes, and the character left unfinished. -/
def readOctet (pending : Option Pending) (b : UInt8) : List (Option Char) × Option Pending :=
  match pending with
  | none => readLead b
  | some p =>
    if p.least ≤ b ∧ b ≤ p.greatest then
      let bits := p.bits * 64 + b.toNat % 64
      match p.more with
      | 0 => ([some (Char.ofNat bits)], none)
      | more + 1 => ([], some ⟨bits, 0x80, 0xbf, more⟩)
    else
      (none :: (readLead b).1, (readLead b).2)

/-- The readings of octets that follow an unfinished character. -/
def readings : Option Pending → Bytes → List (Option Char)
  | none, [] => []
  | some _, [] => [none]
  | pending, b :: rest => (readOctet pending b).1 ++ readings (readOctet pending b).2 rest

/-- The text of octets, with U+FFFD for each fault. -/
def decodeLossy (bytes : Bytes) : List Char := (readings none bytes).map (·.getD '\ufffd')

/-- The text of octets, if they hold no fault. -/
def decode? (bytes : Bytes) : Option (List Char) := (readings none bytes).mapM id

end GpuListing.Text
