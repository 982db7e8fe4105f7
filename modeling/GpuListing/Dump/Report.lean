import GpuListing.Capability.Initializer
import GpuListing.Config
import GpuListing.Directory
import GpuListing.Dump.Options
import GpuListing.Dump.Output
import GpuListing.KernelArgs.Layout
import GpuListing.KernelCode.Header
import GpuListing.KernelCode.Registers
import GpuListing.Listing.Line

/-! # Dumps

A dump shows the kernel code header and its packed registers, the kernel arguments, and the listing of the
machine code. Everything is read before anything is written, and all but the listing is written before the family
is brought up. A dump that fails leaves what its output has released by then. -/

namespace GpuListing.Dump

/-- What a run leaves: its exit code, and what it has written to its two outputs. The log, which goes to the second one
too, is left out. -/
structure Report where
  code : Nat
  stdout : String
  stderr : String
  deriving DecidableEq

/-- Why there is no dump. -/
inductive DumpError where
  | unreadableConfig (path : String) (error : FileError)
  /-- The text in a file is no configuration; what the reader of documents says of it. -/
  | invalidConfig (path : String) (complaint : String)
  | badFamily (error : FamilyError)
  | unreadableInput (path : String) (error : FileError)
  | invalidCodeObject (error : CodeObjectError)
  | noCode (error : CodeObjectError)
  | noArgs (error : KernelArgsError)
  | notActivated (failure : ActivationFailure)
  /-- Bringing the family up was cut off. -/
  | cutOff
  | noSession (error : SessionError)

/-- The message for people. -/
def DumpError.message : DumpError → String
  | unreadableConfig path error => "failed to read config at " ++ path ++ ": " ++ error.message
  | invalidConfig path complaint => "failed to parse config at " ++ path ++ ": " ++ complaint
  | badFamily error => error.message
  | unreadableInput path error => "failed to read " ++ path ++ ": " ++ error.message
  | invalidCodeObject error => "ELF parse error: " ++ error.message
  | noCode error => error.message
  | noArgs error => error.message
  | notActivated failure => failure.message ++ ": " ++ failure.reason.message
  | cutOff => "activation was cut off"
  | noSession error => error.message

/-! ### What to decode for -/

/-- The configuration in a file. -/
def loadConfig (reader : DocumentReader) (files : Files) (path : String) : Except DumpError Config := do
  let data ← (files path).mapError (.unreadableConfig path)
  match Text.decode? data with
  | none => throw (.unreadableConfig path (.system "stream did not contain valid UTF-8"))
  | some text =>
    (Config.parse reader (String.ofList text)).mapError fun error =>
      .invalidConfig path (reader.tell (String.ofList text) error)

/-- The configuration of the options: the configuration file over the defaults, the options over both. -/
def resolve (reader : DocumentReader) (files : Files) (o : Options) : Except DumpError Config := do
  let base ← match o.config with
    | none => pure Config.default
    | some path => loadConfig reader files path
  let family ← match o.family with
    | none => pure base.family
    | some name => (Family.parse name).mapError .badFamily
  return {
    family := family
    triple := o.triple.getD base.triple
    cpu := o.cpu.getD base.cpu
    skipHeader := base.skipHeader && !o.noHeader }

/-! ### What to decode -/

/-- Machine code, maybe with a header in front, where it lies, and the arguments of its kernel. -/
structure Kernel where
  addr : UInt64
  code : Bytes
  args : List KernelArg

/-- The arguments of the kernel in a code object; without metadata none are known. -/
def argsOf (o : CodeObject) : Except DumpError (List KernelArg) :=
  match KernelArgs.ofCodeObject o with
  | .ok args => .ok args
  | .error .missingNote => .ok []
  | .error error => .error (.noArgs error)

/-- The kernel in the input. -/
def readKernel (files : Files) (o : Options) : Except DumpError Kernel := do
  let data ← (files o.input).mapError (.unreadableInput o.input)
  if o.raw then return ⟨0, data, []⟩
  else
    let object ← (CodeObject.parse data).mapError .invalidCodeObject
    let text ← object.text.mapError .noCode
    let args ← argsOf object
    return ⟨text.addr, text.data, args⟩

/-- The header of a kernel, if it is to be skipped, and the machine code with its address. -/
def splitHeader (skip : Bool) (kernel : Kernel) : Except DumpError (Option KernelHeader × UInt64 × Bytes) := do
  if skip then
    let (header, code) ← (KernelHeader.split kernel.code).mapError .noCode
    return (some header, kernel.addr + UInt64.ofNat KernelHeader.size, code)
  else return (none, kernel.addr, kernel.code)

/-- What is read before anything is written. -/
structure Input where
  config : Config
  header? : Option KernelHeader
  addr : UInt64
  code : Bytes
  args : List KernelArg

/-- Reads what there is to dump. -/
def readInput (reader : DocumentReader) (files : Files) (o : Options) : Except DumpError Input := do
  let config ← resolve reader files o
  let kernel ← readKernel files o
  let (header?, addr, code) ← splitHeader config.skipHeader kernel
  return ⟨config, header?, addr, code, kernel.args⟩

/-! ### What is written -/

/-- The blocks of a header and of its packed registers. -/
def headerBlocks (header : KernelHeader) : List String :=
  [header.record.block ++ "\n", (PgmResources.decode header.pgmResourceRegisters.toBitVec).record.block ++ "\n",
   (CodeProperties.decode header.codeProperties.toBitVec).record.block ++ "\n"]

/-- The line of an argument, in the pieces in which it is written: every zero in front of the offset is one. -/
def argPieces (arg : KernelArg) : List String :=
  let digits := Text.hex arg.offset
  ["  [", "0x"] ++ List.replicate (4 - digits.length) "0" ++
    [String.ofList digits, "] ", arg.name, " (size ", toString arg.size, ", align ", toString arg.align, ")\n"]

/-- The lines of arguments; none if there are no arguments. -/
def argsPieces (args : List KernelArg) : List String :=
  if args = [] then [] else "kernel arguments:\n" :: args.flatMap argPieces

/-- The output before the family is brought up. -/
def Input.output (i : Input) : Output :=
  (Output.empty.writeAll ((i.header?.map headerBlocks).getD [])).writeAll (argsPieces i.args)

/-- The session for a configuration on the toolkit of every build. -/
def openSession (config : Config) : Except DumpError Session :=
  let attempt := Initializer.empty.ensureReady Amdgpu.toolkit.provider config.family Registry.empty
  match attempt.verdict with
  | .failed failure => .error (.notActivated failure)
  | .aborted => .error .cutOff
  | .ready => (Session.start attempt.world config.triple config.cpu).mapError .noSession

/-! ### Runs -/

/-- How to use the program. -/
def usage : String :=
  "\n".intercalate [
    "usage: gpudis-dump <file> [options]",
    "",
    "Options:",
    "  --config <file>    TOML config (family, triple, cpu, skip_kernel_header)",
    "  --family <name>    Instruction-set family (default: AMDGPU)",
    "  --triple <triple>  Target triple (default: amdgcn--amdhsa)",
    "  --cpu <name>       Processor (default: gfx900)",
    "  --raw              Input is raw machine code, not ELF",
    "  --no-header        Do not treat the first 256 bytes as amd_kernel_code_t",
    "  -h, --help         Show this help",
    "",
    "Set RUST_LOG=debug to trace capability activation."]

/-- A run that fails with a message, and what it has written by then. -/
def Report.failure (stdout message : String) : Report := ⟨1, stdout, message ++ "\n"⟩

/-- A run of the program on its arguments. -/
def run (reader : DocumentReader) (files : Files) (args : List String) : Report :=
  match CommandLine.ofArgs args with
  | .empty => .failure "" usage
  | .help => ⟨0, "", usage ++ "\n"⟩
  | .invalid error => .failure "" error.message
  | .dump options =>
    match readInput reader files options with
    | .error error => .failure "" error.message
    | .ok input =>
      match openSession input.config with
      | .error error => .failure input.output.released error.message
      | .ok session =>
        let lines := (session.listing input.addr input.code).map fun line => line.render ++ "\n"
        ⟨0, (input.output.writeAll lines).flush.released,
          "target: " ++ session.family.name ++ " (" ++ session.cpu ++ ")\n"⟩

end GpuListing.Dump
