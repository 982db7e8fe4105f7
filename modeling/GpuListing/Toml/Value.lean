import GpuListing.Toml.Moment
import GpuListing.Toml.Node
import GpuListing.Toml.Number

/-! # Keys and values in TOML

A key is bare or a string on one line, and dots join keys to a path of limited length. A value is a string, a
number, a truth value, a moment, an array or an inline table; space, comments and ends of lines may stand around
the parts of arrays and inline tables, around an equals sign between braces too, and a comma after the last
part. Values nest to a fixed depth. -/

namespace GpuListing.Toml

/-! ### Keys -/

/-- A character of bare keys. -/
def isKeyCharacter (c : Char) : Bool := c.isAlphanum || c = '_' || c = '-'

/-- A key. -/
def key : Reader String := fun text =>
  match lineText text with
  | some (cs, rest) => some (String.ofList cs, rest)
  | none =>
    if (text.takeWhile isKeyCharacter).isEmpty then none
    else some (String.ofList (text.takeWhile isKeyCharacter), text.dropWhile isKeyCharacter)

/-- At most so many keys joined by dots, with space around them; the text after them begins with no space. -/
def keysUpTo : (most : Nat) → Reader (List String)
  | 0, _ => none
  | most + 1, text => do
    let (first, rest) ← key (skipSpaces text)
    match skipSpaces rest with
    | '.' :: rest =>
      let (path, rest) ← keysUpTo most rest
      return (first :: path, rest)
    | rest => return ([first], rest)

/-- The number of keys in the longest paths. -/
def maxKeys : Nat := 80

/-- A path of keys. -/
def keyPath : Reader (List String) := keysUpTo maxKeys

/-! ### Plain values -/

/-- A character of values without marks around them. -/
def isAtomCharacter (c : Char) : Bool := c.isAlphanum || c = '+' || c = '-' || c = '.' || c = '_' || c = ':'

/-- The value of a text without marks around it. -/
def atom? (text : List Char) : Option Node :=
  if text = "true".toList then some (.boolean true)
  else if text = "false".toList then some (.boolean false)
  else
    match integer? text with
    | some n => some (.integer n)
    | none =>
      match float? text with
      | some x => some (.float x)
      | none => if isMoment text then some .moment else none

/-- A value without marks around it; a date and a time may have a blank between them. -/
def atom : Reader Node := fun text =>
  let word := text.takeWhile isAtomCharacter
  let rest := text.dropWhile isAtomCharacter
  match rest with
  | ' ' :: c :: more =>
    if isDate word && c.isDigit then
      if isTimeWithOffset ((c :: more).takeWhile isAtomCharacter) then
        some (.moment, (c :: more).dropWhile isAtomCharacter)
      else none
    else (atom? word).map (·, rest)
  | _ => (atom? word).map (·, rest)

/-! ### Nested values -/

/-- The items of an array, each read by `inner`; the text begins after the bracket. -/
def items (inner : Reader Node) (text : List Char) : Option (List Node × List Char) := do
  match ← skipGap false text with
  | ']' :: rest => return ([], rest)
  | start =>
    let (first, rest) ← inner start
    match ← skipGap false rest with
    | ']' :: rest => return ([first], rest)
    | ',' :: rest =>
      if _h : rest.length < text.length then
        let (others, rest) ← items inner rest
        return (first :: others, rest)
      else none
    | _ => none
termination_by text.length

/-- A path of keys and its value, which is read by `inner`; `skip` takes off what may stand around the sign
    between them. -/
def entry (skip : List Char → Option (List Char)) (inner : Reader Node) : Reader (List String × Node) :=
  fun text => do
    let (path, rest) ← keyPath text
    let rest ← expect '=' (← skip rest)
    let (node, rest) ← inner (← skip rest)
    return ((path, node), rest)

/-- The entries of an inline table, whose values are read by `inner`; the text begins after the brace. -/
def entries (inner : Reader Node) (text : List Char) : Option (List (List String × Node) × List Char) := do
  match ← skipGap false text with
  | '\x7d' :: rest => return ([], rest)
  | start =>
    let (first, rest) ← entry (skipGap false) inner start
    match ← skipGap false rest with
    | '\x7d' :: rest => return ([first], rest)
    | ',' :: rest =>
      if _h : rest.length < text.length then
        let (others, rest) ← entries inner rest
        return (first :: others, rest)
      else none
    | _ => none
termination_by text.length

/-- The inline table of its entries. -/
def ofEntries (entries : List (List String × Node)) : Option Node := do
  let fields ← entries.foldlM (fun fields entry => insert entry.2 entry.1 fields) []
  return .table .inline fields

/-- A value whose parts, if it may have any, are read by `inner`. -/
def valueWith (inner : Option (Reader Node)) : Reader Node := fun text =>
  match text with
  | '[' :: rest => do
    let (nodes, rest) ← items (← inner) rest
    return (.array nodes, rest)
  | '\x7b' :: rest => do
    let (found, rest) ← entries (← inner) rest
    return (← ofEntries found, rest)
  | '\x22' :: _ => (anyText text).map fun (cs, rest) => (.text (String.ofList cs), rest)
  | '\x27' :: _ => (anyText text).map fun (cs, rest) => (.text (String.ofList cs), rest)
  | _ => atom text

/-- A value in which arrays and inline tables nest to a depth. -/
def value : (depth : Nat) → Reader Node
  | 0 => valueWith none
  | depth + 1 => valueWith (some (value depth))

/-- The depth to which values nest. -/
def maxDepth : Nat := 80

end GpuListing.Toml
