import GpuListing.Text.Quoted

/-! # Kernel arguments

The metadata of a kernel lists its arguments. Each has a size and an alignment, and the arguments are laid out
one after another in the segment of kernel arguments. -/

namespace GpuListing

/-- An argument of a kernel, and where it lies among the arguments. -/
structure KernelArg where
  /-- The name, or the value kind of an argument without a name. -/
  name : String
  valueKind : Option String
  size : Nat
  align : Nat
  offset : Nat
  deriving DecidableEq

/-- A property that an argument has to have. -/
inductive ArgField where
  | name
  | size
  | align
  deriving DecidableEq

/-- The key of a property. -/
def ArgField.key : ArgField → String
  | name => "Name"
  | size => "Size"
  | align => "Align"

/-- Why the arguments of a kernel cannot be told. Lines count from one, arguments from zero. -/
inductive KernelArgsError where
  /-- The code object has no metadata. -/
  | missingNote
  /-- The list of arguments begins with a line that begins no argument. -/
  | orphanField (line : Nat)
  | missingField (index : Nat) (field : ArgField)
  | badValue (index : Nat) (field : ArgField) (value : String)
  /-- The argument does not end below 2^32. -/
  | offsetOverflow (index : Nat)
  deriving DecidableEq

/-- The message for people. -/
def KernelArgsError.message : KernelArgsError → String
  | missingNote => "missing .note section with kernel metadata"
  | orphanField line =>
    "metadata line " ++ toString line ++ ": argument field outside of an argument entry"
  | missingField index field => "kernel argument " ++ toString index ++ ": missing " ++ field.key
  | badValue index field value =>
    "kernel argument " ++ toString index ++ ": invalid " ++ field.key ++ " " ++ Text.quoted value
  | offsetOverflow index => "kernel argument " ++ toString index ++ ": kernarg offset overflows"

end GpuListing
