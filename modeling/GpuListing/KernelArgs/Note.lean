import GpuListing.KernelArgs.Layout

/-! # Notes with kernel arguments

A note that tells given arguments: octets up to a line feed, lines of text, the line that begins the list of
arguments, a block of lines for each argument, and whatever follows the first line that is not deeper than the
list. The lines of a block are fields in any order; what an argument does not ask for may stand among them. -/

namespace GpuListing.KernelArgs

/-! ### Arguments -/

/-- What is told of an argument. -/
structure Argument where
  name? : Option String
  valueKind? : Option String
  size : UInt32
  align : UInt32
  /-- An argument without a name has a value kind. -/
  named : (name?.or valueKind?).isSome = true
  aligned : ∃ exponent, align.toNat = Nat.pow 2 exponent

namespace Argument

/-- The name, or the value kind of an argument without a name. -/
def title (a : Argument) : String := (a.name?.or a.valueKind?).get a.named

def placedAt (a : Argument) (offset : Nat) : KernelArg :=
  ⟨a.title, a.valueKind?, a.size.toNat, a.align.toNat, offset⟩

end Argument

/-- Arguments placed one after another from a position on: each at the least multiple of its alignment that is
    no less than the end of the one before, with its own end below 2^32. -/
inductive LaidOut : (start : Nat) → List Argument → List KernelArg → Prop where
  | nil (start : Nat) : LaidOut start [] []
  | cons {start offset : Nat} {a : Argument} {rest : List Argument} {placed : List KernelArg} :
      a.align.toNat ∣ offset → start ≤ offset → offset < start + a.align.toNat →
      offset + a.size.toNat < Nat.pow 2 32 → LaidOut (offset + a.size.toNat) rest placed →
      LaidOut start (a :: rest) (a.placedAt offset :: placed)

/-! ### Fields -/

/-- How a value is written: as it is, or between quotation marks. -/
inductive Quoting where
  | plain
  | single
  | double
  deriving DecidableEq

def Quoting.write : Quoting → List Char → List Char
  | plain, value => value
  | single, value => '\x27' :: (value ++ ['\x27'])
  | double, value => '\x22' :: (value ++ ['\x22'])

/-- A value stands between two quotation marks of one kind. -/
def Quoted (value : List Char) : Prop :=
  ∃ inner, value = Quoting.single.write inner ∨ value = Quoting.double.write inner

/-- A line with a key and a value: the blanks in front, those after the colon, and how the value is written. -/
structure FieldLine where
  indent : Nat
  key : List Char
  gap : Nat
  quoting : Quoting
  value : List Char

namespace FieldLine

/-- The line without the blanks in front. -/
def content (line : FieldLine) : List Char :=
  line.key ++ ':' :: (Text.blanks line.gap ++ line.quoting.write line.value)

def text (line : FieldLine) : List Char := Text.blanks line.indent ++ line.content

/-- The line as the first one of a block. -/
def itemText (line : FieldLine) : List Char := Text.blanks line.indent ++ '-' :: ' ' :: line.content

/-- A line that is read as it is meant: deeper than the list, with a key that ends at the first colon and does not
    look like the mark of an entry, and with a value that needs no quotation marks or has them. -/
structure Readable (base : Nat) (line : FieldLine) : Prop where
  deeper : base < line.indent
  colon : ':' ∉ line.key
  bare : Text.Bare line.key
  unmarked : ¬['-', ' '] <+: line.key
  feed : '\n' ∉ line.key ++ line.value
  nul : '\x00' ∉ line.key ++ line.value
  plain : line.quoting = .plain → Text.Bare line.value ∧ ¬Quoted line.value

end FieldLine

/-! ### Blocks -/

/-- The lines for one argument; the first one has the mark of an entry. -/
structure Block where
  first : FieldLine
  rest : List FieldLine

namespace Block

def fields (b : Block) : List FieldLine := b.first :: b.rest

def lines (b : Block) : List (List Char) := b.first.itemText :: b.rest.map FieldLine.text

/-- The values for a key. -/
def values (b : Block) (key : String) : List (List Char) :=
  (b.fields.filter fun line => line.key = key.toList).map FieldLine.value

/-- A block tells an argument: it holds what the argument has, each property once and numbers in decimal digits,
    and nothing that the argument does not have. -/
structure Tells (b : Block) (a : Argument) : Prop where
  name : b.values "Name" = a.name?.toList.map String.toList
  valueKind : b.values "ValueKind" = a.valueKind?.toList.map String.toList
  size : b.values "Size" = [(toString a.size.toNat).toList]
  align : b.values "Align" = [(toString a.align.toNat).toList]

end Block

/-! ### Notes -/

/-- A note with a list of arguments. -/
structure Note where
  /-- The octets before the first line feed. -/
  header : Bytes
  /-- The lines before the list. -/
  opening : List (List Char)
  /-- The blanks before `Args:`. -/
  indent : Nat
  /-- The blanks after `Args:`. -/
  trailing : Nat
  blocks : List Block
  /-- The first line after the list, and the octets after that line. -/
  tail : Option (List Char × Bytes)

namespace Note

def argsText (n : Note) : List Char := Text.blanks n.indent ++ ("Args:".toList ++ Text.blanks n.trailing)

def listText (n : Note) : List (List Char) := n.blocks.flatMap Block.lines

def octets (n : Note) : Bytes :=
  n.header ++ 0x0a :: (Text.octets (Text.ofLines (n.opening ++ n.argsText :: n.listText)) ++
    match n.tail with
    | none => []
    | some (line, rest) => Text.octets line ++ 0x0a :: rest)

/-- A line that ends the list: not all white space, and with no more octets of white space in front than there are
    before `Args:`. -/
structure Ends (base : Nat) (line : List Char) : Prop where
  solid : ∃ c ∈ line, Text.isBlank c = false
  shallow : (Text.octets (line.takeWhile Text.isBlank)).length ≤ base
  feed : '\n' ∉ line
  nul : '\x00' ∉ line

/-- A note whose parts are where they are meant to be. -/
structure WellFormed (n : Note) : Prop where
  header : 0x0a ∉ n.header
  opening : ∀ line ∈ n.opening, Text.trim line ≠ "Args:".toList ∧ '\n' ∉ line ∧ '\x00' ∉ line
  blocks : ∀ b ∈ n.blocks, ∀ line ∈ b.fields, line.Readable n.indent
  tail : ∀ line rest, n.tail = some (line, rest) → Ends n.indent line

end Note

end GpuListing.KernelArgs
