/-! # Buffered output

Output is written in pieces and held back in a buffer until it does not fit any more or is flushed. A program that
ends early has written what was released; what is held is lost. -/

namespace GpuListing.Dump

/-- What has left the buffer, and what is still in it. -/
structure Output where
  released : String
  held : String
  deriving DecidableEq

namespace Output

/-- The number of octets that the buffer holds. -/
def capacity : Nat := 8192

def empty : Output := ⟨"", ""⟩

/-- All that is written. -/
def text (o : Output) : String := o.released ++ o.held

/-- The output with an empty buffer. -/
def flush (o : Output) : Output := ⟨o.text, ""⟩

/-- Writes a piece. One that would fill the buffer alone goes past it; one that does not fit into what is left of the
    buffer is held after what was there is released. -/
def write (o : Output) (piece : String) : Output :=
  if capacity ≤ piece.utf8ByteSize then ⟨o.text ++ piece, ""⟩
  else if capacity < o.held.utf8ByteSize + piece.utf8ByteSize then ⟨o.text, piece⟩
  else ⟨o.released, o.held ++ piece⟩

def writeAll (o : Output) (pieces : List String) : Output := pieces.foldl write o

end Output

end GpuListing.Dump
