import GpuListing.Text.Quoted

/-! # Records as text

A record is a name and labelled values. It is written on one line, `Name { a: 1, b: true }`, or as a block
with one field a line. -/

namespace GpuListing.Text

/-- A value in a record: a number, a truth value, or text that is written as it is. -/
inductive Datum where
  | number (n : Int)
  | flag (b : Bool)
  | text (s : String)

/-- A named list of labelled values; `hasMore` tells that some of its parts are not shown. -/
structure Record where
  name : String
  fields : List (String × Datum)
  hasMore : Bool := false

namespace Datum

/-- The written value. -/
def render : Datum → String
  | number n => toString n
  | flag b => if b then "true" else "false"
  | text s => s

/-- Texts in quotation marks, between square brackets. -/
def quotedList (items : List String) : Datum :=
  .text ("[" ++ ", ".intercalate (items.map quoted) ++ "]")

/-- A text in quotation marks. -/
def quotedText (s : String) : Datum := .text (quoted s)

end Datum

namespace Record

/-- A label and its value. -/
def renderField (field : String × Datum) : String := field.1 ++ ": " ++ field.2.render

/-- The record on one line; two dots stand for the parts that are not shown. -/
def inline (r : Record) : String :=
  r.name ++ " \x7b " ++ ", ".intercalate (r.fields.map renderField ++ if r.hasMore then [".."] else []) ++ " \x7d"

/-- The record as a block: one field a line, four blanks in front and a comma behind. -/
def block (r : Record) : String :=
  r.name ++ " \x7b\n" ++ String.join (r.fields.map fun field => "    " ++ renderField field ++ ",\n") ++ "\x7d"

end Record

end GpuListing.Text
