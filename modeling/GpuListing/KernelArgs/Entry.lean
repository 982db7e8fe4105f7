import GpuListing.KernelArgs.Basic
import GpuListing.Text.Blank
import GpuListing.Text.Line
import GpuListing.Text.Utf8

/-! # Argument entries

Metadata is text in lines, and depth is told by leading white space. The list of arguments is the lines that
follow the first line `Args:` and are deeper than it, up to the first one that is not; lines of white space do
not count. A line that begins with a hyphen and a blank begins an entry. A line holds a key and a value, with
the first colon between them; a line without a colon holds nothing. -/

namespace GpuListing.KernelArgs

/-- A line that is not all white space: its number from one, the octets of white space in front, and what
    follows them. -/
structure NoteLine where
  number : Nat
  depth : Nat
  content : List Char
  deriving DecidableEq

/-- A key and its value. -/
structure Field where
  key : List Char
  value : List Char
  deriving DecidableEq

/-- The fields of an argument, in the order in which they stand. -/
abbrev Entry := List Field

/-! ### Lines -/

/-- The text of a note: what follows its first line feed, without zeros. -/
def noteText (note : Bytes) : List Char :=
  Text.decodeLossy (((note.dropWhile (· ≠ 0x0a)).drop 1).filter (· ≠ 0))

/-- A numbered line, unless it is all white space. -/
def NoteLine.ofLine? (line : List Char × Nat) : Option NoteLine :=
  let content := Text.trimStart line.1
  if content = [] then none
  else some ⟨line.2, (Text.octets (line.1.takeWhile Text.isBlank)).length, content⟩

/-- The lines of a text that are not all white space. -/
def noteLines (text : List Char) : List NoteLine := ((Text.lines text).zipIdx 1).filterMap NoteLine.ofLine?

/-- The line begins the list of arguments. -/
def NoteLine.beginsArgs (line : NoteLine) : Bool := Text.trimEnd line.content = "Args:".toList

/-- What follows the mark of an entry, if the line begins with it. -/
def NoteLine.item? (line : NoteLine) : Option (List Char) :=
  match line.content with
  | '-' :: ' ' :: rest => some rest
  | _ => none

/-- The lines of the list of arguments. -/
def argsLines (lines : List NoteLine) : List NoteLine :=
  match lines.dropWhile fun line => !line.beginsArgs with
  | [] => []
  | head :: rest => rest.takeWhile fun line => head.depth < line.depth

/-! ### Fields -/

/-- A text without a mark at both of its ends. -/
def unmark? (mark : Char) (text : List Char) : Option (List Char) :=
  match text with
  | [] => none
  | c :: rest => if c = mark ∧ rest.getLast? = some mark then some rest.dropLast else none

/-- A value without the quotation marks around it, single or double ones. -/
def unquote (text : List Char) : List Char := ((unmark? '\x27' text).or (unmark? '\x22' text)).getD text

/-- The key and the value in a text, if there is a colon. -/
def Field.ofText? (text : List Char) : Option Field :=
  if ':' ∈ text then
    some ⟨Text.trim (text.takeWhile (· ≠ ':')), unquote (Text.trim ((text.dropWhile (· ≠ ':')).drop 1))⟩
  else none

/-! ### Entries -/

/-- The fields before the first entry, and the entries. -/
def group : List NoteLine → List Field × List Entry
  | [] => ([], [])
  | line :: rest =>
    let (fields, entries) := group rest
    match line.item? with
    | some content => ([], ((Field.ofText? content).toList ++ fields) :: entries)
    | none => ((Field.ofText? line.content).toList ++ fields, entries)

/-- The entries in the lines of a list of arguments, the first of which has to begin one. -/
def entries (lines : List NoteLine) : Except KernelArgsError (List Entry) :=
  match lines with
  | [] => .ok []
  | line :: _ => if line.item?.isNone then .error (.orphanField line.number) else .ok (group lines).2

end GpuListing.KernelArgs
