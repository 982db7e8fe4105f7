import GpuListing.Toml.Value

/-! # TOML documents

A document is statements on lines of their own: headers of tables, headers of rows, and entries, which belong
to the table or row of the last header. -/

namespace GpuListing.Toml

/-- A line of a document that is not empty. -/
inductive Statement where
  | header (path : List String)
  | row (path : List String)
  | entry (path : List String) (node : Node)

/-- A statement. -/
def statement : Reader Statement
  | '[' :: '[' :: rest => do
    let (path, rest) ← keyPath rest
    return (.row path, ← expect ']' (← expect ']' rest))
  | '[' :: rest => do
    let (path, rest) ← keyPath rest
    return (.header path, ← expect ']' rest)
  | text => do
    let ((path, node), rest) ← entry (some ∘ skipSpaces) (value maxDepth) text
    return (.entry path node, rest)

/-- The statements of a text. -/
def statements (text : List Char) : Option (List Statement) := do
  match ← skipGap false text with
  | [] => return []
  | start =>
    let (first, rest) ← statement start
    let rest ← lineEnd rest
    if _h : rest.length < text.length then
      let others ← statements rest
      return first :: others
    else none
termination_by text.length

/-- The fields of the whole document so far, and the path of the last header. -/
structure Draft where
  fields : Fields
  place : List String

/-- The draft after one more statement. -/
def Draft.add (draft : Draft) : Statement → Option Draft
  | .header path => do
    let last ← path.getLast?
    return ⟨← within (define last) path.dropLast draft.fields, path⟩
  | .row path => do
    let last ← path.getLast?
    return ⟨← within (addRow last) path.dropLast draft.fields, path⟩
  | .entry path node => do
    return { draft with fields := ← within (insert node path) draft.place draft.fields }

/-- The text without a byte order mark at its start. -/
def dropMark : List Char → List Char
  | '\ufeff' :: rest => rest
  | text => text

/-- The fields of a document. -/
def parse (text : String) : Option Fields := do
  let found ← statements (dropMark text.toList)
  let draft ← found.foldlM Draft.add ⟨[], []⟩
  return draft.fields

end GpuListing.Toml
