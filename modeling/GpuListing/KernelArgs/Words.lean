import GpuListing.KernelArgs.Layout

/-! # Layout by words

`layout` adds positions of any size. A machine has words of 32 bits for them, and a sum that no word holds wraps round.
Here the same arguments are placed that way: a sum that has wrapped is less than what was added to, and is refused. -/

namespace GpuListing.KernelArgs.Words

/-- The sum of two words, unless it has wrapped. -/
def add? (a b : UInt32) : Option UInt32 := if a + b < a then none else some (a + b)

/-- A position moved up to a multiple of a word; what is missing to the next multiple is added to it. -/
def roundUp? (position align : UInt32) : Option UInt32 :=
  if align = 0 then none
  else if position % align = 0 then some position
  else add? position (align - position % align)

/-- Where an argument starts that comes after a position, and where it ends. -/
def place? (start : UInt32) (spec : Spec) : Option (UInt32 × UInt32) := do
  let offset ← roundUp? start (UInt32.ofNat spec.align)
  let stop ← add? offset (UInt32.ofNat spec.size)
  return (offset, stop)

/-- Places arguments from an offset on; the first one has the given number. -/
def layout : (index : Nat) → (start : UInt32) → List Entry → Except KernelArgsError (List KernelArg)
  | _, _, [] => .ok []
  | index, start, entry :: rest => do
    let spec ← Spec.ofEntry index entry
    match place? start spec with
    | none => throw (.offsetOverflow index)
    | some (offset, stop) =>
      let args ← layout (index + 1) stop rest
      return ⟨spec.name, spec.valueKind, spec.size, spec.align, offset.toNat⟩ :: args

/-- The kernel arguments in a note. -/
def ofNote (note : Bytes) : Except KernelArgsError (List KernelArg) :=
  entries (argsLines (noteLines (noteText note))) >>= layout 0 0

end GpuListing.KernelArgs.Words
