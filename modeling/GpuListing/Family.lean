import GpuListing.Text.Blank
import GpuListing.Text.Quoted
import GpuListing.Text.Utf8

/-! # Instruction-set families

A family is known by its name. A name that people write is trimmed and then holds only ASCII letters and
digits, underscores and hyphens; a family that a build ships may have any name. Families are ordered by the
octets of their names. -/

namespace GpuListing

/-- An instruction-set family. -/
structure Family where
  name : String
  deriving DecidableEq

/-- Why a text names no family. -/
inductive FamilyError where
  /-- Nothing is left of the name once it is trimmed. -/
  | empty
  /-- The trimmed name holds a character that no name has; the first one is told. -/
  | badCharacter (name : String) (c : Char)
  deriving DecidableEq

namespace FamilyError

/-- The message for people. -/
def message : FamilyError → String
  | empty => "instruction-set family name cannot be empty"
  | badCharacter name c =>
    "invalid character " ++ Text.quotedChar c ++ " in instruction-set family name " ++ Text.quoted name

end FamilyError

namespace Family

/-- The characters of names. -/
def isNameCharacter (c : Char) : Bool := c.isAlphanum || c = '_' || c = '-'

/-- The family that a text names. -/
def parse (text : String) : Except FamilyError Family :=
  let name := Text.trim text.toList
  if name = [] then .error .empty
  else
    match name.find? fun c => !isNameCharacter c with
    | some c => .error (.badCharacter (String.ofList name) c)
    | none => .ok ⟨String.ofList name⟩

/-! ### Order -/

/-- The octets of the name. -/
def octets (f : Family) : Bytes := Text.octets f.name.toList

/-- Families are ordered by the octets of their names. -/
instance : LT Family := ⟨fun f g => f.octets < g.octets⟩

instance (f g : Family) : Decidable (f < g) := inferInstanceAs (Decidable (f.octets < g.octets))

/-- How two families are ordered. -/
def order (f g : Family) : Ordering := compareOfLessAndEq f g

/-- The families in their order. -/
def sort (families : List Family) : List Family := families.mergeSort fun f g => !decide (g < f)

/-- The family in quotation marks, named by its kind. -/
def shown (f : Family) : String := "Family(" ++ Text.quoted f.name ++ ")"

/-- Families between square brackets. -/
def shownList (families : List Family) : String := "[" ++ ", ".intercalate (families.map shown) ++ "]"

end Family

end GpuListing
