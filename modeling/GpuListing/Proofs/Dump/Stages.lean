import GpuListing.Dump.Report
import GpuListing.Proofs.KernelArgs.Exact
import GpuListing.Proofs.Listing.Words
import GpuListing.Proofs.Toolkit.Decodable

/-! # Stages of a dump

What is read before anything is written either is a kernel or fails for the first reason in order, and the family
that the configuration names either comes up on a known processor or is refused for the first reason in order. The
reasons are told with their messages. -/

namespace GpuListing

/-! ### Sessions for AMDGPU -/

namespace Amdgpu

/-- What is registered once the family is up. -/
def registry : Registry := Registry.empty.put family ⟨some info, some machine, some Decoder.rawWordFactory⟩

theorem ensureReady_eq :
    (Initializer.empty.ensureReady toolkit.provider family Registry.empty).verdict = .ready ∧
      (Initializer.empty.ensureReady toolkit.provider family Registry.empty).world = registry :=
  ⟨rfl, rfl⟩

theorem familyFor?_registry (triple : String) :
    registry.familyFor? triple = if triple ∈ info.triples then some family else none := by
  have hinfos : registry.infos = [info] := rfl
  rw [Registry.familyFor?, hinfos, List.find?_singleton]
  simp only [TargetInfo.accepts, List.contains_iff_mem]
  split <;> rfl

/-- The processor that a name stands for. -/
def processorOf (cpu : String) : String := if cpu = "" then defaultProcessor else cpu

theorem start_registry {triple cpu : String} (htriple : triple ∈ info.triples) :
    Session.start registry triple cpu =
      if processorOf cpu ∈ processors then .ok (session (processorOf cpu))
      else .error (.unknownProcessor family (processorOf cpu)) := by
  have hmachine : registry.machine? family = some machine := rfl
  have hfactory : registry.factory? family = some Decoder.rawWordFactory := rfl
  rw [Session.start, Session.startAcross, familyFor?_registry, if_pos htriple]
  simp only [hmachine, hfactory]
  exact Session.onModel_eq family machine Decoder.rawWordFactory cpu

end Amdgpu

namespace Dump

/-! ### What is asked for -/

/-- The family, the triple and the processor of a configuration are known. -/
structure Supported (config : Config) : Prop where
  family : config.family = Amdgpu.family
  triple : config.triple ∈ Amdgpu.info.triples
  cpu : config.cpu = "" ∨ config.cpu ∈ Amdgpu.processors

/-- Why a configuration is refused: the first of three that is not known. -/
inductive Refused (config : Config) : String → Prop where
  | family (h : config.family ≠ Amdgpu.family) :
      Refused config ("failed to activate metadata capability for " ++ config.family.name ++ ": " ++
        ("toolkit was built without support for " ++ config.family.name))
  | triple (hfamily : config.family = Amdgpu.family) (h : config.triple ∉ Amdgpu.info.triples) :
      Refused config ("no registered target accepts triple " ++ Text.quoted config.triple)
  | cpu (hfamily : config.family = Amdgpu.family) (htriple : config.triple ∈ Amdgpu.info.triples)
      (hnamed : config.cpu ≠ "") (h : config.cpu ∉ Amdgpu.processors) :
      Refused config ("AMDGPU has no processor named " ++ Text.quoted config.cpu)

section Opening
variable {config : Config} {message : String}

theorem message_notActivated (family : Family) :
    (DumpError.notActivated ⟨family, .metadata, .unsupported family⟩).message =
      "failed to activate metadata capability for " ++ family.name ++ ": " ++
        ("toolkit was built without support for " ++ family.name) := by
  have hfront : "failed to activate " ++ Stage.metadata.name ++ " capability for " =
      "failed to activate metadata capability for " := by decide
  exact congrArg (· ++ family.name ++ ": " ++ ("toolkit was built without support for " ++ family.name)) hfront

theorem openSession_of_ne (h : config.family ≠ Amdgpu.family) :
    openSession config = .error (.notActivated ⟨config.family, .metadata, .unsupported config.family⟩) := by
  have hbundle : Amdgpu.toolkit.bundles.get? config.family = none := by
    have hget : Amdgpu.toolkit.bundles.get? config.family =
        if Amdgpu.family = config.family then some Amdgpu.bundle else Toolkit.empty.bundles.get? config.family :=
      Table.get?_set ..
    rw [hget, if_neg (Ne.symm h)]
    rfl
  have hprovider := Toolkit.provider_of_none hbundle .metadata Registry.empty
  have hattempt : (Initializer.empty.ensureReady Amdgpu.toolkit.provider config.family Registry.empty).verdict =
      .failed ⟨config.family, .metadata, .unsupported config.family⟩ :=
    congrArg Attempt.verdict (activatePending_refused rfl hprovider)
  rw [openSession, hattempt]

theorem openSession_eq (h : config.family = Amdgpu.family) :
    openSession config = (Session.start Amdgpu.registry config.triple config.cpu).mapError .noSession := by
  obtain ⟨hverdict, hworld⟩ := Amdgpu.ensureReady_eq
  rw [openSession, h, hverdict, hworld]

theorem Supported.openSession (h : Supported config) :
    openSession config = .ok (Amdgpu.session (Amdgpu.processorOf config.cpu)) := by
  have hknown : Amdgpu.processorOf config.cpu ∈ Amdgpu.processors := by
    unfold Amdgpu.processorOf
    split
    · decide
    · next hnamed => exact h.cpu.resolve_left hnamed
  rw [openSession_eq h.family, Amdgpu.start_registry h.triple, if_pos hknown]
  rfl

theorem Refused.openSession (h : Refused config message) :
    ∃ error, openSession config = .error error ∧ error.message = message := by
  cases h with
  | family h => exact ⟨_, openSession_of_ne h, message_notActivated config.family⟩
  | triple hfamily h =>
    rw [openSession_eq hfamily, Session.start, Session.startAcross, Amdgpu.familyFor?_registry, if_neg h]
    exact ⟨_, rfl, rfl⟩
  | cpu hfamily htriple hnamed h =>
    have hprocessor : Amdgpu.processorOf config.cpu = config.cpu := if_neg hnamed
    rw [openSession_eq hfamily, Amdgpu.start_registry htriple, hprocessor, if_neg h]
    exact ⟨_, rfl, rfl⟩

theorem supported_or_refused (config : Config) : Supported config ∨ ∃ message, Refused config message := by
  by_cases hfamily : config.family = Amdgpu.family
  · by_cases htriple : config.triple ∈ Amdgpu.info.triples
    · by_cases hcpu : config.cpu = "" ∨ config.cpu ∈ Amdgpu.processors
      · exact .inl ⟨hfamily, htriple, hcpu⟩
      · obtain ⟨hnamed, hunknown⟩ := not_or.mp hcpu
        exact .inr ⟨_, .cpu hfamily htriple hnamed hunknown⟩
    · exact .inr ⟨_, .triple hfamily htriple⟩
  · exact .inr ⟨_, .family hfamily⟩

end Opening

/-! ### What is read -/

/-- The arguments in the first note of a code object; without a note there are none. -/
inductive TellsArgs (object : CodeObject) : List KernelArg → Prop where
  | none (h : object.section? ".note" = .none) : TellsArgs object []
  | note {note : Section} {args : List KernelArg} (h : object.section? ".note" = some note)
      (hargs : KernelArgs.ofNote note.data = .ok args) : TellsArgs object args

/-- The kernel in the input: all of it, or the first section of code with the arguments. -/
inductive Holds (files : Files) (o : Options) : Kernel → Prop where
  | raw {data : Bytes} (hread : files o.input = .ok data) (hraw : o.raw = true) : Holds files o ⟨0, data, []⟩
  | object {data : Bytes} {object : CodeObject} {text : Section} {args : List KernelArg}
      (hread : files o.input = .ok data) (hraw : o.raw = false) (hobject : CodeObject.parse data = .ok object)
      (htext : object.section? ".text" = some text) (hargs : TellsArgs object args) :
      Holds files o ⟨text.addr, text.data, args⟩

/-- The kernel in the input, which has room for a header if there is to be one. -/
structure Reads (files : Files) (o : Options) (skip : Bool) (kernel : Kernel) : Prop where
  holds : Holds files o kernel
  room : skip = true → KernelHeader.size ≤ kernel.code.length

/-- Why there is no such kernel: the first of five reasons. -/
inductive Unreadable (files : Files) (o : Options) (skip : Bool) : String → Prop where
  | input {error : FileError} (h : files o.input = .error error) :
      Unreadable files o skip ("failed to read " ++ o.input ++ ": " ++ error.message)
  | object {data : Bytes} {error : CodeObjectError} (hread : files o.input = .ok data) (hraw : o.raw = false)
      (h : CodeObject.parse data = .error error) : Unreadable files o skip ("ELF parse error: " ++ error.message)
  | text {data : Bytes} {object : CodeObject} (hread : files o.input = .ok data) (hraw : o.raw = false)
      (hobject : CodeObject.parse data = .ok object) (h : object.section? ".text" = none) :
      Unreadable files o skip "missing .text section"
  | args {data : Bytes} {object : CodeObject} {text note : Section} {error : KernelArgsError}
      (hread : files o.input = .ok data) (hraw : o.raw = false) (hobject : CodeObject.parse data = .ok object)
      (htext : object.section? ".text" = some text) (hnote : object.section? ".note" = some note)
      (h : KernelArgs.ofNote note.data = .error error) : Unreadable files o skip error.message
  | header {kernel : Kernel} (hholds : Holds files o kernel) (hskip : skip = true)
      (h : kernel.code.length < KernelHeader.size) :
      Unreadable files o skip
        ("kernel code must be at least 256 bytes long (got " ++ toString kernel.code.length ++ ")")

/-- The header that begins the code of a kernel. -/
def Kernel.header (k : Kernel) : KernelHeader := (KernelHeader.read.run (k.code.take KernelHeader.size)).1

/-- What there is to dump of a kernel. -/
def Kernel.input (config : Config) (k : Kernel) : Input :=
  if config.skipHeader then
    ⟨config, some k.header, k.addr + UInt64.ofNat KernelHeader.size, k.code.drop KernelHeader.size, k.args⟩
  else ⟨config, none, k.addr, k.code, k.args⟩

section Reading
variable {reader : DocumentReader} {files : Files} {o : Options} {config : Config} {kernel : Kernel} {message : String}

theorem TellsArgs.argsOf {object : CodeObject} {args : List KernelArg} (h : TellsArgs object args) :
    argsOf object = .ok args := by
  cases h with
  | none h => simp only [Dump.argsOf, KernelArgs.ofCodeObject, h]
  | note h hargs => simp only [Dump.argsOf, KernelArgs.ofCodeObject, h, hargs]

theorem argsOf_of_error {object : CodeObject} {note : Section} {error : KernelArgsError}
    (h : object.section? ".note" = some note) (hargs : KernelArgs.ofNote note.data = .error error) :
    argsOf object = .error (.noArgs error) := by
  have htold : KernelArgs.ofCodeObject object = .error error := by simp only [KernelArgs.ofCodeObject, h, hargs]
  rw [argsOf, htold]
  cases error with
  | missingNote => exact absurd hargs (KernelArgs.ofNote_ne_missingNote note.data)
  | _ => rfl

section Object
variable {data : Bytes} {object : CodeObject} {text : Section} (hread : files o.input = .ok data) (hraw : o.raw = false)
include hread hraw

theorem readKernel_of_data :
    readKernel files o = ((CodeObject.parse data).mapError DumpError.invalidCodeObject).bind fun object =>
      (object.text.mapError DumpError.noCode).bind fun text =>
        (argsOf object).map fun args => ⟨text.addr, text.data, args⟩ := by
  rw [readKernel, hread]
  exact if_neg (Bool.eq_false_iff.mp hraw)

variable (hobject : CodeObject.parse data = .ok object)
include hobject

theorem readKernel_of_object :
    readKernel files o = (object.text.mapError DumpError.noCode).bind fun text =>
      (argsOf object).map fun args => ⟨text.addr, text.data, args⟩ := by
  rw [readKernel_of_data hread hraw, hobject]
  rfl

theorem readKernel_of_text (htext : object.section? ".text" = some text) :
    readKernel files o = (argsOf object).map fun args => ⟨text.addr, text.data, args⟩ := by
  rw [readKernel_of_object hread hraw hobject, CodeObject.text, htext]
  rfl

end Object

theorem Holds.readKernel (h : Holds files o kernel) : readKernel files o = .ok kernel := by
  cases h with
  | raw hread hraw =>
    rw [Dump.readKernel, hread]
    exact if_pos hraw
  | object hread hraw hobject htext hargs =>
    rw [readKernel_of_text hread hraw hobject htext, hargs.argsOf]
    rfl

theorem readInput_of_config (hconfig : resolve reader files o = .ok config) :
    readInput reader files o = (readKernel files o).bind fun kernel =>
      (splitHeader config.skipHeader kernel).map fun parts =>
        ⟨config, parts.1, parts.2.1, parts.2.2, kernel.args⟩ := by
  rw [readInput, hconfig]
  rfl

theorem readInput_of_kernel (hconfig : resolve reader files o = .ok config) (h : readKernel files o = .ok kernel) :
    readInput reader files o = (splitHeader config.skipHeader kernel).map fun parts =>
      ⟨config, parts.1, parts.2.1, parts.2.2, kernel.args⟩ := by
  rw [readInput_of_config hconfig, h]
  rfl

theorem Reads.readInput (h : Reads files o config.skipHeader kernel) (hconfig : resolve reader files o = .ok config) :
    readInput reader files o = .ok (kernel.input config) := by
  rw [readInput_of_kernel hconfig h.holds.readKernel, Kernel.input]
  by_cases hskip : config.skipHeader = true
  · have hsplit : KernelHeader.split kernel.code = .ok (kernel.header, kernel.code.drop KernelHeader.size) :=
      if_neg (Nat.not_lt.mpr (h.room hskip))
    rw [if_pos hskip, splitHeader, if_pos hskip, hsplit]
    rfl
  · rw [if_neg hskip, splitHeader, if_neg hskip]
    rfl

theorem readInput_of_error {error : DumpError} (hconfig : resolve reader files o = .ok config)
    (h : readKernel files o = .error error) : readInput reader files o = .error error := by
  rw [readInput_of_config hconfig, h]
  rfl

theorem Unreadable.readInput (h : Unreadable files o config.skipHeader message)
    (hconfig : resolve reader files o = .ok config) :
    ∃ error, readInput reader files o = .error error ∧ error.message = message := by
  cases h with
  | @input error h =>
    refine ⟨.unreadableInput o.input error, readInput_of_error hconfig ?_, rfl⟩
    rw [readKernel, h]
    rfl
  | @object _ error hread hraw h =>
    refine ⟨.invalidCodeObject error, readInput_of_error hconfig ?_, rfl⟩
    rw [readKernel_of_data hread hraw, h]
    rfl
  | text hread hraw hobject h =>
    refine ⟨.noCode (.missingSection ".text"), readInput_of_error hconfig ?_, rfl⟩
    rw [readKernel_of_object hread hraw hobject, CodeObject.text, h]
    rfl
  | @args _ _ _ _ error hread hraw hobject htext hnote h =>
    refine ⟨.noArgs error, readInput_of_error hconfig ?_, rfl⟩
    rw [readKernel_of_text hread hraw hobject htext, argsOf_of_error hnote h]
    rfl
  | header hholds hskip h =>
    refine ⟨.noCode (.shortKernelCode _), ?_, rfl⟩
    rw [readInput_of_kernel hconfig hholds.readKernel, splitHeader, if_pos hskip, KernelHeader.split, if_pos h]
    rfl

theorem reads_or_unreadable (files : Files) (o : Options) (skip : Bool) :
    (∃ kernel, Reads files o skip kernel) ∨ ∃ message, Unreadable files o skip message := by
  have hroom : ∀ kernel, Holds files o kernel →
      (∃ kernel, Reads files o skip kernel) ∨ ∃ message, Unreadable files o skip message := by
    intro kernel hholds
    by_cases hshort : skip = true ∧ kernel.code.length < KernelHeader.size
    · exact .inr ⟨_, .header hholds hshort.1 hshort.2⟩
    · exact .inl ⟨kernel, hholds, fun hskip => Nat.not_lt.mp fun h => hshort ⟨hskip, h⟩⟩
  -- Split in the order in which the program reads, so that each reason comes with what is read before it.
  cases hread : files o.input with
  | error error => exact .inr ⟨_, .input hread⟩
  | ok data =>
    cases hraw : o.raw with
    | true => exact hroom _ (.raw hread hraw)
    | false =>
      cases hobject : CodeObject.parse data with
      | error error => exact .inr ⟨_, .object hread hraw hobject⟩
      | ok object =>
        cases htext : object.section? ".text" with
        | none => exact .inr ⟨_, .text hread hraw hobject htext⟩
        | some text =>
          cases hnote : object.section? ".note" with
          | none => exact hroom _ (.object hread hraw hobject htext (.none hnote))
          | some note =>
            cases hargs : KernelArgs.ofNote note.data with
            | error error => exact .inr ⟨_, .args hread hraw hobject htext hnote hargs⟩
            | ok args => exact hroom _ (.object hread hraw hobject htext (.note hnote hargs))

end Reading

end Dump

end GpuListing
