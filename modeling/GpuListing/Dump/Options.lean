/-! # Command-line arguments

The first argument is the input, whatever it looks like. After it come options: two are flags, four take the
argument after them as their value, again whatever it looks like. Of an option that is given more than once
the last value counts. The first argument that fits nowhere is the error. -/

namespace GpuListing.Dump

/-- What the command line asks for. -/
structure Options where
  input : String
  config : Option String := none
  family : Option String := none
  triple : Option String := none
  cpu : Option String := none
  /-- The input is machine code and no code object. -/
  raw : Bool := false
  /-- The machine code begins with no header. -/
  noHeader : Bool := false
  deriving DecidableEq

/-- Why a command line asks for nothing. -/
inductive OptionsError where
  | unknownOption (option : String)
  | missingValue (option : String)
  deriving DecidableEq

/-- The message for people. -/
def OptionsError.message : OptionsError → String
  | unknownOption option => "unknown option: " ++ option
  | missingValue option => "missing value for " ++ option

namespace Options

/-- The options with a flag set, if the argument is a flag. -/
def setFlag? (o : Options) (flag : String) : Option Options :=
  if flag = "--raw" then some { o with raw := true }
  else if flag = "--no-header" then some { o with noHeader := true }
  else none

/-- How a value is set, if the argument takes one. -/
def setValue? (o : Options) (option : String) : Option (String → Options) :=
  if option = "--config" then some fun value => { o with config := some value }
  else if option = "--family" then some fun value => { o with family := some value }
  else if option = "--triple" then some fun value => { o with triple := some value }
  else if option = "--cpu" then some fun value => { o with cpu := some value }
  else none

/-- The options with those of more arguments. -/
def add (o : Options) : List String → Except OptionsError Options
  | [] => .ok o
  | argument :: rest =>
    match o.setFlag? argument with
    | some next => next.add rest
    | none =>
      match o.setValue? argument, rest with
      | none, _ => .error (.unknownOption argument)
      | some _, [] => .error (.missingValue argument)
      | some put, value :: rest => (put value).add rest

/-- The options of an input and the arguments after it. -/
def parse (input : String) (rest : List String) : Except OptionsError Options := add { input := input } rest

/-- The paths that are read, in the order in which they are read. -/
def paths (o : Options) : List String := o.config.toList ++ [o.input]

end Options

/-- What a command line comes to. -/
inductive CommandLine where
  /-- Nothing is asked for. -/
  | empty
  | help
  | invalid (error : OptionsError)
  | dump (options : Options)
  deriving DecidableEq

/-- Reads a command line. -/
def CommandLine.ofArgs : List String → CommandLine
  | [] => .empty
  | input :: rest =>
    if input = "--help" ∨ input = "-h" then .help
    else
      match Options.parse input rest with
      | .ok options => .dump options
      | .error error => .invalid error

end GpuListing.Dump
