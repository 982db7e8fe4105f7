import GpuListing.CodeObject.Basic
import GpuListing.KernelArgs.Entry
import GpuListing.Text.Numeral

/-! # Layout of kernel arguments

An argument starts at the end of the one before it, rounded up to its alignment. Sums are exact; an argument
that would end at 2^32 or beyond is refused. -/

namespace GpuListing.KernelArgs

/-- What an entry tells of an argument. -/
structure Spec where
  name : String
  valueKind : Option String
  size : Nat
  align : Nat
  deriving DecidableEq

/-- Numbers stay below this bound. -/
def bound : Nat := UInt32.size

/-- The number below 2^32 that a text writes: decimal digits, which a plus may precede. -/
def number? (text : List Char) : Option Nat :=
  let digits := match text with
    | '+' :: rest => rest
    | _ => text
  if digits ≠ [] ∧ digits.all Char.isDigit = true ∧ Text.ofDecimal digits < bound then
    some (Text.ofDecimal digits)
  else none

/-- A power of two. -/
def isPowerOfTwo (n : Nat) : Bool := Nat.pow 2 n.log2 = n

/-- The first value for a key. -/
def value? (entry : Entry) (key : String) : Option (List Char) :=
  (entry.find? fun field => field.key = key.toList).map Field.value

/-- The number for a key. -/
def numberOf (index : Nat) (entry : Entry) (field : ArgField) : Except KernelArgsError Nat :=
  match value? entry field.key with
  | none => .error (.missingField index field)
  | some text =>
    match number? text with
    | none => .error (.badValue index field (String.ofList text))
    | some n => .ok n

/-- The alignment in an entry. -/
def alignOf (index : Nat) (entry : Entry) : Except KernelArgsError Nat := do
  let align ← numberOf index entry .align
  if isPowerOfTwo align then return align else throw (.badValue index .align (toString align))

/-- What an entry tells, and the first thing that it lacks. -/
def Spec.ofEntry (index : Nat) (entry : Entry) : Except KernelArgsError Spec := do
  let valueKind := (value? entry "ValueKind").map String.ofList
  match ((value? entry "Name").map String.ofList).or valueKind with
  | none => throw (.missingField index .name)
  | some name =>
    let size ← numberOf index entry .size
    let align ← alignOf index entry
    return ⟨name, valueKind, size, align⟩

/-- The least multiple of a number that is no less than another one. -/
def roundUp (n align : Nat) : Nat := (n + align - 1) / align * align

/-- Places arguments from an offset on; the first one has the given number. -/
def layout : (index start : Nat) → List Entry → Except KernelArgsError (List KernelArg)
  | _, _, [] => .ok []
  | index, start, entry :: rest => do
    let spec ← Spec.ofEntry index entry
    let offset := roundUp start spec.align
    if offset + spec.size < bound then
      let args ← layout (index + 1) (offset + spec.size) rest
      return ⟨spec.name, spec.valueKind, spec.size, spec.align, offset⟩ :: args
    else throw (.offsetOverflow index)

/-- The kernel arguments in a text. -/
def ofText (text : List Char) : Except KernelArgsError (List KernelArg) :=
  entries (argsLines (noteLines text)) >>= layout 0 0

/-- The kernel arguments in a note. -/
def ofNote (note : Bytes) : Except KernelArgsError (List KernelArg) := ofText (noteText note)

/-- The kernel arguments in the first note of a code object. -/
def ofCodeObject (o : CodeObject) : Except KernelArgsError (List KernelArg) :=
  match o.section? ".note" with
  | none => .error .missingNote
  | some note => ofNote note.data

end GpuListing.KernelArgs
