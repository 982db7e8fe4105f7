import GpuListing.Amdgpu
import GpuListing.Decimal.Shortest
import GpuListing.Shape
import GpuListing.Toml.Keys

/-! # Configurations

A configuration tells which family, triple and processor to decode for, and whether a kernel code header
comes first. A TOML document sets some of its fields over the defaults. Its fields are taken as a reader of documents
hands them over, and the first one that is unknown, or whose value cannot be taken, is the error. -/

namespace GpuListing

/-- What to decode for. -/
structure Config where
  family : Family
  triple : String
  cpu : String
  skipHeader : Bool
  deriving DecidableEq

/-- Why a field of a document cannot be set. -/
inductive FieldError where
  | unknown (name : String)
  | badValue (error : ValueError)

/-- The message for people. -/
def FieldError.message : FieldError → String
  | unknown name =>
    "unknown field `" ++ name ++ "`, expected one of `family`, `triple`, `cpu`, `skip_kernel_header`"
  | badValue error => error.message

/-- Why a text is no configuration. -/
inductive ConfigError where
  /-- The text is no TOML document. -/
  | notToml
  | badField (error : FieldError)

/-- Floats of a document are written positionally in messages, and of two decimals that are equally near the
    upper one is taken. -/
def Toml.floatStyle : Binary64.Style := ⟨false, none⟩

/-- The shape of a value of a document. -/
def Toml.Node.shape : Toml.Node → Shape
  | .text s => .text s
  | .integer n => .integer n
  | .float x => .float (x.render Toml.floatStyle)
  | .boolean b => .boolean b
  | .moment => .map
  | .array _ => .sequence
  | .rows _ => .sequence
  | .table .. => .map

namespace Config

/-- The configuration that is taken when nothing is set. -/
def default : Config := ⟨Amdgpu.family, Amdgpu.defaultTriple, Amdgpu.defaultProcessor, true⟩

/-- The configuration with one field set. -/
def set (c : Config) (key : String) (value : Shape) : Except FieldError Config :=
  if key = "family" then do
    return { c with family := ← value.toFamily.mapError .badValue }
  else if key = "triple" then do
    return { c with triple := ← value.toText.mapError .badValue }
  else if key = "cpu" then do
    return { c with cpu := ← value.toText.mapError .badValue }
  else if key = "skip_kernel_header" then do
    return { c with skipHeader := ← value.toBoolean.mapError .badValue }
  else .error (.unknown key)

/-- The defaults with fields set one after another. -/
def ofFields (fields : Toml.Fields) : Except FieldError Config :=
  fields.foldlM (fun c field => c.set field.1 field.2.shape) default

end Config

/-- A way to read TOML documents. -/
structure DocumentReader where
  /-- The fields of a document as they are handed over, if the text is a document. -/
  read : String → Option Toml.Fields
  /-- No key is handed over twice. -/
  distinct : ∀ {text : String} {fields : Toml.Fields}, read text = some fields → Toml.Distinct fields
  /-- What people are told of the error in a text. -/
  tell : String → ConfigError → String

namespace DocumentReader

/-- The reader that hands the fields over in the order of their keys. It has words of its own for errors, and does not
tell where they stand. -/
def inOrder : DocumentReader where
  read text := (Toml.parse text).map Toml.sorted
  distinct h := by
    obtain ⟨fields, hfields, rfl⟩ := Option.map_eq_some_iff.1 h
    exact (Toml.distinct_of_parse hfields).sorted
  tell
    | _, .notToml => "no TOML document"
    | _, .badField error => error.message

end DocumentReader

/-- The configuration in a document. -/
def Config.parse (reader : DocumentReader) (text : String) : Except ConfigError Config :=
  match reader.read text with
  | none => .error .notToml
  | some fields => (ofFields fields).mapError .badField

end GpuListing
