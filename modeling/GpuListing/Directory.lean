import GpuListing.Text.Utf8

/-! # Directories of files

A directory holds files by name and no directories. A path is names between slashes, and is walked from left
to right: an empty name or a single dot stays, two dots lead to the directory above, a file leads nowhere. -/

namespace GpuListing

/-- Why a path cannot be read. -/
inductive FileError where
  | notFound
  | notDirectory
  | isDirectory
  | nameTooLong
  /-- The system has another reason. -/
  | system (text : String)
  deriving DecidableEq

/-- The message for people. -/
def FileError.message : FileError → String
  | notFound => "No such file or directory (os error 2)"
  | notDirectory => "Not a directory (os error 20)"
  | isDirectory => "Is a directory (os error 21)"
  | nameTooLong => "File name too long (os error 36)"
  | system text => text

/-- Reads the files at paths. -/
abbrev Files := String → Except FileError Bytes

/-- Files by name. -/
structure Directory where
  files : List (String × Bytes)

namespace Directory

/-- Where a walk has come to: the directory itself, a directory above it, or a file in it. -/
inductive Place where
  | here
  | above
  | file (data : Bytes)

/-- The greatest number of octets of a name. -/
def maxName : Nat := 255

/-- The number of octets from which on a path is too long. -/
def maxPath : Nat := 4096

/-- One step of a walk. -/
def step (d : Directory) (place : Place) (name : String) : Except FileError Place :=
  match place with
  | .file _ => .error .notDirectory
  | _ =>
    if name = "" ∨ name = "." then .ok place
    else if name = ".." then .ok .above
    else if maxName < (Text.octets name.toList).length then .error .nameTooLong
    else
      match place with
      | .here =>
        match d.files.find? fun file => file.1 = name with
        | some file => .ok (.file file.2)
        | none => .error .notFound
      | _ => .error .notFound

/-- The names between the slashes of a path. -/
def names : List Char → List (List Char)
  | [] => [[]]
  | '/' :: rest => [] :: names rest
  | c :: rest =>
    match names rest with
    | [] => [[c]]
    | name :: more => (c :: name) :: more

/-- Reads the file at a path. -/
def read (d : Directory) : Files := fun path =>
  if path = "" then .error .notFound
  else if maxPath ≤ (Text.octets path.toList).length then .error .nameTooLong
  else do
    let start := if path.toList.head? = some '/' then Place.above else Place.here
    match ← ((names path.toList).map String.ofList).foldlM d.step start with
    | .file data => return data
    | _ => throw .isDirectory

end Directory

end GpuListing
