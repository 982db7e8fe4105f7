import GpuListing.Listing.Session

/-! # Listings

A listing divides bytes into lines from the front. Where the decoder gives an instruction that fits into the
bytes left, the line is that instruction; elsewhere it is a data directive over the shortest length of an
instruction, or over what is left. Each line takes at least one octet, so a listing ends. -/

namespace GpuListing

/-- A line of a listing: where it starts, how many octets it takes, and its text. -/
structure Line where
  addr : UInt64
  length : Nat
  text : String
  deriving DecidableEq

/-- An octet in hexadecimal. -/
def octetText (b : UInt8) : String := "0x" ++ String.ofList (Text.hexFixed 2 b.toNat)

/-- Octets as a data directive. -/
def octetsText (bytes : Bytes) : String := ".byte " ++ ", ".intercalate (bytes.map octetText)

/-- The line as it is printed: the address in at least eight columns, two blanks, and the text. -/
def Line.render (line : Line) : String :=
  String.ofList ((Text.hex line.addr.toNat).leftpad 8 ' ') ++ "  " ++ line.text

namespace Session

/-- The decoder's answer, where there are enough octets for an instruction and the answer fits into them. -/
def usable? (s : Session) (addr : UInt64) (bytes : Bytes) : Option Decoded :=
  if s.model.chunk ≤ bytes.length then
    (s.decoder addr bytes).filter fun d => 0 < d.length && d.length ≤ bytes.length
  else none

/-- The line over the octets of one data directive. -/
def dataLine (s : Session) (addr : UInt64) (bytes : Bytes) : Line :=
  let octets := bytes.take s.model.chunk
  ⟨addr, octets.length, octetsText octets⟩

/-- The line at the start of bytes that lie at an address. -/
def decodeOne (s : Session) (addr : UInt64) (bytes : Bytes) : Line :=
  match s.usable? addr bytes with
  | some d => ⟨addr, d.length, String.ofList (Text.trimStart d.text.toList)⟩
  | none => s.dataLine addr bytes

theorem usable?_bounds {s : Session} {addr : UInt64} {bytes : Bytes} {d : Decoded}
    (h : s.usable? addr bytes = some d) : 0 < d.length ∧ d.length ≤ bytes.length := by
  unfold usable? at h
  split at h
  · have := (Option.filter_eq_some_iff.mp h).2
    simpa using this
  · cases h

theorem length_dataLine (s : Session) (addr : UInt64) (bytes : Bytes) :
    (s.dataLine addr bytes).length = min s.model.chunk bytes.length := by simp [dataLine]

/-- A line takes at least one octet. -/
theorem length_decodeOne_pos (s : Session) (addr : UInt64) {bytes : Bytes} (h : bytes ≠ []) :
    0 < (s.decodeOne addr bytes).length := by
  unfold decodeOne
  split
  · next d hd => exact (usable?_bounds hd).1
  · have hc := s.model.chunk_pos
    have hb := List.length_pos_iff.mpr h
    rw [length_dataLine]
    omega

/-- A line takes no more octets than there are. -/
theorem length_decodeOne_le (s : Session) (addr : UInt64) (bytes : Bytes) :
    (s.decodeOne addr bytes).length ≤ bytes.length := by
  unfold decodeOne
  split
  · next d hd => exact (usable?_bounds hd).2
  · rw [length_dataLine]
    omega

/-- The lines over bytes that lie at an address; addresses go on from zero after the highest one. -/
def listing (s : Session) (addr : UInt64) (bytes : Bytes) : List Line :=
  if _h : bytes = [] then []
  else
    let line := s.decodeOne addr bytes
    line :: listing s (addr + UInt64.ofNat line.length) (bytes.drop line.length)
termination_by bytes.length
decreasing_by
  have hp := s.length_decodeOne_pos addr ‹¬bytes = []›
  have hb := List.length_pos_iff.mpr ‹¬bytes = []›
  rw [List.length_drop]
  omega

end Session

end GpuListing
