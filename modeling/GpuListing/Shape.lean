import GpuListing.Family

/-! # Shapes of values

Where a value of one kind is expected and another is found, the message tells what was found. -/

namespace GpuListing

/-- What kind of value was found. -/
inductive Shape where
  | integer (n : Int)
  /-- A floating-point number, as messages write it. -/
  | float (written : String)
  | boolean (b : Bool)
  | text (s : String)
  | null
  | sequence
  | map

namespace Shape

/-- The value in messages. -/
def describe : Shape → String
  | integer n => "integer `" ++ toString n ++ "`"
  | float written => "floating point `" ++ written ++ "`"
  | boolean b => "boolean `" ++ (if b then "true" else "false") ++ "`"
  | text s => "string " ++ Text.quoted s
  | null => "null"
  | sequence => "sequence"
  | map => "map"

end Shape

/-- Why a value cannot be taken. -/
inductive ValueError where
  /-- A string is expected. -/
  | notText (found : Shape)
  /-- A truth value is expected. -/
  | notBoolean (found : Shape)
  | notFamily (error : FamilyError)

namespace ValueError

/-- The message for people. -/
def message : ValueError → String
  | notText found => "invalid type: " ++ found.describe ++ ", expected a string"
  | notBoolean found => "invalid type: " ++ found.describe ++ ", expected a boolean"
  | notFamily error => error.message

end ValueError

namespace Shape

/-- The string that a value is. -/
def toText : Shape → Except ValueError String
  | text s => .ok s
  | found => .error (.notText found)

/-- The truth value that a value is. -/
def toBoolean : Shape → Except ValueError Bool
  | boolean b => .ok b
  | found => .error (.notBoolean found)

/-- The family that a value names. -/
def toFamily (found : Shape) : Except ValueError Family := do
  let name ← found.toText
  (Family.parse name).mapError .notFamily

end Shape

/-- The value that a family is written as. -/
def Family.shape (family : Family) : Shape := .text family.name

end GpuListing
