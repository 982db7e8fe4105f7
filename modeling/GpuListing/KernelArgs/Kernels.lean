import GpuListing.KernelArgs.Layout

/-! # Metadata of several kernels

Metadata lists kernels. The line with the name of a kernel begins its item and stands at the depth of the list; the
other lines of the kernel are deeper, and a list of arguments may be among them. -/

namespace GpuListing.KernelArgs

/-- The octets of white space in front of a line. -/
def depthOf (line : List Char) : Nat := (Text.octets (line.takeWhile Text.isBlank)).length

/-- A line that is not all white space. -/
abbrev Solid (line : List Char) : Prop := Text.trimStart line ≠ []

/-- A line that begins a list of arguments. -/
abbrev BeginsArgs (line : List Char) : Prop := Text.trim line = "Args:".toList

/-- A line without line feeds and zeros. -/
abbrev Clean (line : List Char) : Prop := '\n' ∉ line ∧ '\x00' ∉ line

/-- An item of the list of kernels. -/
structure Kernel where
  /-- What follows `- Name:`. -/
  name : List Char
  body : List (List Char)

namespace Kernel

def lines (indent : Nat) (k : Kernel) : List (List Char) :=
  (Text.blanks indent ++ ("- Name:".toList ++ k.name)) :: k.body

/-- A kernel has a list of arguments. -/
abbrev HasArgs (k : Kernel) : Prop := ∃ line ∈ k.body, BeginsArgs line

/-- The lines after the first one are deeper than the list. -/
structure Inside (indent : Nat) (k : Kernel) : Prop where
  name : Clean k.name
  body : ∀ line ∈ k.body, Clean line ∧ (Solid line → indent < depthOf line)

end Kernel

/-- What stands around the kernels. -/
structure Metadata where
  /-- The octets before the first line feed. -/
  header : Bytes
  /-- The lines before `Kernels:`. -/
  opening : List (List Char)
  /-- The depth of the list of kernels. -/
  indent : Nat
  /-- The lines after the list. -/
  closing : List (List Char)
  /-- The zeros after the text. -/
  padding : Nat

namespace Metadata

def front (m : Metadata) : List (List Char) := m.opening ++ ["Kernels:".toList]

def lines (m : Metadata) (kernels : List Kernel) : List (List Char) :=
  m.front ++ (kernels.flatMap (Kernel.lines m.indent) ++ m.closing)

def octets (m : Metadata) (kernels : List Kernel) : Bytes :=
  m.header ++ 0x0a :: (Text.octets (Text.ofLines (m.lines kernels)) ++ List.replicate m.padding 0)

/-- Nothing around the kernels begins a list of arguments, and the list of kernels ends before a line that is not
    deeper. -/
structure WellFormed (m : Metadata) (kernels : List Kernel) : Prop where
  header : 0x0a ∉ m.header
  opening : ∀ line ∈ m.opening, Clean line ∧ ¬BeginsArgs line
  kernels : ∀ k ∈ kernels, k.Inside m.indent
  closing : ∀ line ∈ m.closing, Clean line ∧ ¬BeginsArgs line
  ends : ∀ line ∈ m.closing.find? fun line => Solid line, depthOf line ≤ m.indent

end Metadata

end GpuListing.KernelArgs
