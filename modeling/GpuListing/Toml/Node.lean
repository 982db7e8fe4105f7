import GpuListing.Decimal.Binary64

/-! # TOML trees

A document is a table of named nodes. How a table came about decides what may be added to it: headers may pass
through any table but inline ones, may define a table that is only implied by longer headers, and may add rows
to an array of tables; a dotted key may pass through tables that are implied or that dotted keys have made, and
no header can define those afterwards. A key is never set twice. -/

namespace GpuListing.Toml

/-- How a table came about. -/
inductive Origin where
  /-- On the way of a header. -/
  | implied
  /-- By a header of its own. -/
  | header
  /-- On the way of a dotted key. -/
  | dotted
  /-- Between braces. -/
  | inline
  deriving DecidableEq

/-- A value of a document. -/
inductive Node where
  | text (s : String)
  | integer (n : Int)
  | float (x : Binary64)
  | boolean (b : Bool)
  /-- A date, a time, or both. -/
  | moment
  | array (items : List Node)
  /-- An array of tables that headers have made. -/
  | rows (tables : List (List (String × Node)))
  | table (origin : Origin) (fields : List (String × Node))

/-- The named nodes of a table. -/
abbrev Fields := List (String × Node)

/-! ### Changes of tables -/

/-- The fields with the node of a key changed; a change may refuse the node, or that there is none. -/
def alter (key : String) (change : Option Node → Option Node) : Fields → Option Fields
  | [] => (change none).map fun node => [(key, node)]
  | (k, node) :: rest =>
    if k = key then (change (some node)).map fun node => (k, node) :: rest
    else (alter key change rest).map ((k, node) :: ·)

/-- The rows with the last one changed. -/
def alterLast (change : Fields → Option Fields) : List Fields → Option (List Fields)
  | [] => none
  | [row] => (change row).map fun row => [row]
  | row :: rest => (alterLast change rest).map (row :: ·)

/-- The fields with the table at the path of a header changed. Tables that are not there are implied. -/
def within (change : Fields → Option Fields) : List String → Fields → Option Fields
  | [], fields => change fields
  | key :: path, fields =>
    alter key (fun
      | none => (within change path []).map (.table .implied)
      | some (.table origin sub) =>
        if origin = .inline then none else (within change path sub).map (.table origin)
      | some (.rows tables) => (alterLast (within change path) tables).map .rows
      | some _ => none) fields

/-- The fields with a node at the path of a dotted key. Tables on the way become dotted ones. -/
def insert (node : Node) : List String → Fields → Option Fields
  | [], _ => none
  | [key], fields =>
    alter key (fun
      | none => some node
      | some _ => none) fields
  | key :: path, fields =>
    alter key (fun
      | none => (insert node path []).map (.table .dotted)
      | some (.table origin sub) =>
        if origin = .dotted ∨ origin = .implied then (insert node path sub).map (.table .dotted) else none
      | some (.rows tables) =>
        if 1 < path.length then (alterLast (insert node path) tables).map .rows else none
      | some _ => none) fields

/-- The fields with a table that a header defines. -/
def define (key : String) : Fields → Option Fields :=
  alter key fun
    | none => some (.table .header [])
    | some (.table .implied sub) => some (.table .header sub)
    | some _ => none

/-- The fields with one more row in an array of tables. -/
def addRow (key : String) : Fields → Option Fields :=
  alter key fun
    | none => some (.rows [[]])
    | some (.rows tables) => some (.rows (tables ++ [[]]))
    | some _ => none

end GpuListing.Toml
