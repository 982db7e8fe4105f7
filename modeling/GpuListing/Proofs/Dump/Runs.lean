import GpuListing.Proofs.CodeObject.RoundTrip
import GpuListing.Proofs.Dump.Output
import GpuListing.Proofs.Dump.Stages
import GpuListing.Proofs.KernelArgs.ReadBack
import GpuListing.Proofs.Library.Lists

/-! # Runs of the program

A run that dumps shows the blocks of the header, the arguments and the listing. A run that fails before anything is
written shows nothing. One that fails later, as the configuration is refused, shows what the buffer has let out of
the blocks by then. -/

namespace GpuListing.Dump

/-! ### What is shown -/

def headerText (header : KernelHeader) : String :=
  header.record.block ++ "\n" ++ (PgmResources.decode header.pgmResourceRegisters.toBitVec).record.block ++ "\n" ++
    (CodeProperties.decode header.codeProperties.toBitVec).record.block ++ "\n"

def argLine (arg : KernelArg) : String :=
  "  [0x" ++ String.ofList ((Text.hex arg.offset).leftpad 4 '0') ++ "] " ++ arg.name ++ " (size " ++
    toString arg.size ++ ", align " ++ toString arg.align ++ ")\n"

def argsText (args : List KernelArg) : String :=
  if args = [] then "" else "kernel arguments:\n" ++ String.join (args.map argLine)

/-- What is shown before the listing. -/
def blocksText (skip : Bool) (kernel : Kernel) : String :=
  (if skip then headerText kernel.header else "") ++ argsText kernel.args

/-- The address of the first line. -/
def Kernel.start (skip : Bool) (kernel : Kernel) : Nat :=
  if skip then (kernel.addr.toNat + 256) % Nat.pow 2 64 else kernel.addr.toNat

/-- The machine code after the header, if there is one. -/
def Kernel.body (skip : Bool) (kernel : Kernel) : Bytes := if skip then kernel.code.drop 256 else kernel.code

/-- A line for each four octets from an address on. -/
def listingText (start : Nat) (code : Bytes) : String :=
  String.join <| (List.range ((code.length + 3) / 4)).map fun k =>
    String.ofList ((Text.hex ((start + 4 * k) % Nat.pow 2 64)).leftpad 8 ' ') ++ "  " ++
      Amdgpu.chunkText ((code.drop (4 * k)).take 4) ++ "\n"

/-! ### The blocks in pieces -/

theorem join_zeros (n : Nat) : String.join (List.replicate n "0") = String.ofList (List.replicate n '0') := by
  induction n with
  | zero => rfl
  | succ n ih =>
    rw [List.replicate_succ, String.join_cons, ih, List.replicate_succ, String.ofList_cons]
    rfl

theorem join_argPieces (arg : KernelArg) : String.join (argPieces arg) = argLine arg := by
  have hfront : "  [0x" = "  [" ++ "0x" := by decide
  rw [argPieces, argLine, List.leftpad, String.join_append, String.join_append, join_zeros, hfront, String.ofList_append]
  simp only [String.join_cons, String.join_nil, String.append_assoc, String.append_empty]

theorem join_argsPieces (args : List KernelArg) : String.join (argsPieces args) = argsText args := by
  unfold argsPieces argsText
  split
  · rfl
  · rw [String.join_cons, join_flatMap]
    simp only [join_argPieces]

theorem join_headerBlocks (header : KernelHeader) : String.join (headerBlocks header) = headerText header := by
  simp only [headerBlocks, headerText, String.join_cons, String.join_nil, String.append_assoc, String.append_empty]

/-- The pieces in which the blocks are written. -/
def Input.pieces (i : Input) : List String := (i.header?.map headerBlocks).getD [] ++ argsPieces i.args

theorem Input.output_eq (i : Input) : i.output = Output.empty.writeAll i.pieces := List.foldl_append.symm

theorem join_pieces (config : Config) (kernel : Kernel) :
    String.join (kernel.input config).pieces = blocksText config.skipHeader kernel := by
  rw [Input.pieces, String.join_append, blocksText, Kernel.input]
  by_cases hskip : config.skipHeader = true
  · rw [if_pos hskip, if_pos hskip]
    exact congr (congrArg _ (join_headerBlocks kernel.header)) (join_argsPieces kernel.args)
  · rw [if_neg hskip, if_neg hskip]
    exact congrArg _ (join_argsPieces kernel.args)

/-! ### The listing -/

theorem config_input (config : Config) (kernel : Kernel) : (kernel.input config).config = config := by
  rw [Kernel.input]
  split <;> rfl

theorem addr_input (config : Config) (kernel : Kernel) :
    (kernel.input config).addr.toNat = kernel.start config.skipHeader := by
  rw [Kernel.input, Kernel.start]
  split
  · exact UInt64.toNat_add ..
  · rfl

theorem code_input (config : Config) (kernel : Kernel) : (kernel.input config).code = kernel.body config.skipHeader := by
  rw [Kernel.input, Kernel.body]
  split <;> rfl

theorem join_listing (cpu : String) (addr : UInt64) (code : Bytes) :
    String.join (((Amdgpu.session cpu).listing addr code).map fun line => line.render ++ "\n") =
      listingText addr.toNat code := by
  rw [Amdgpu.listing_eq, List.map_map, listingText]
  refine congrArg String.join (List.map_congr_left fun k _ => ?_)
  have haddr : (addr + UInt64.ofNat (4 * k)).toNat = (addr.toNat + 4 * k) % Nat.pow 2 64 := by
    rw [UInt64.toNat_add, UInt64.toNat_ofNat']
    show (addr.toNat + 4 * k % 2 ^ 64) % 2 ^ 64 = (addr.toNat + 4 * k) % 2 ^ 64
    omega
  rw [← haddr]
  rfl

/-! ### Runs -/

section Runs
variable {reader : DocumentReader} {files : Files} {args : List String} {o : Options} {config : Config}
  (hargs : CommandLine.ofArgs args = .dump o)
include hargs

theorem run_of_error {error : DumpError} (h : readInput reader files o = .error error) :
    run reader files args = ⟨1, "", error.message ++ "\n"⟩ := by
  simp only [run, hargs, h, Report.failure]

theorem run_of_input {input : Input} (h : readInput reader files o = .ok input) :
    run reader files args = match openSession input.config with
      | .error error => .failure input.output.released error.message
      | .ok session =>
        ⟨0, input.output.text ++ String.join ((session.listing input.addr input.code).map fun line => line.render ++ "\n"),
          "target: " ++ session.family.name ++ " (" ++ session.cpu ++ ")\n"⟩ := by
  simp only [run, hargs, h]
  cases openSession input.config with
  | error error => rfl
  | ok session => simp only [Output.flush, Output.text_writeAll]

variable (hconfig : resolve reader files o = .ok config)
include hconfig

theorem run_of_unreadable {message : String} (h : Unreadable files o config.skipHeader message) :
    run reader files args = ⟨1, "", message ++ "\n"⟩ := by
  obtain ⟨error, herror, rfl⟩ := h.readInput hconfig
  exact run_of_error hargs herror

theorem run_of_refused {kernel : Kernel} {message : String} (hreads : Reads files o config.skipHeader kernel)
    (h : Refused config message) :
    ∃ shown held, run reader files args = ⟨1, shown, message ++ "\n"⟩ ∧
      shown ++ held = blocksText config.skipHeader kernel ∧ held.utf8ByteSize ≤ 8192 ∧
      ((blocksText config.skipHeader kernel).utf8ByteSize < 8192 → shown = "") := by
  obtain ⟨error, herror, rfl⟩ := h.openSession
  obtain ⟨held, hall, hfits, hnone⟩ := Output.released_prefix (kernel.input config).pieces
  rw [join_pieces] at hall hnone
  refine ⟨_, held, ?_, hall, hfits, hnone⟩
  rw [run_of_input hargs (hreads.readInput hconfig), config_input, herror, Input.output_eq]
  rfl

theorem run_of_supported {kernel : Kernel} (hreads : Reads files o config.skipHeader kernel) (h : Supported config) :
    run reader files args =
      ⟨0, blocksText config.skipHeader kernel ++
        listingText (kernel.start config.skipHeader) (kernel.body config.skipHeader),
        "target: AMDGPU (" ++ Amdgpu.processorOf config.cpu ++ ")\n"⟩ := by
  have hblocks : (kernel.input config).output.text = blocksText config.skipHeader kernel := by
    rw [Input.output_eq, Output.text_writeAll, join_pieces]
    exact String.empty_append
  rw [run_of_input hargs (hreads.readInput hconfig), config_input, h.openSession]
  show Report.mk 0 (_ ++ _) _ = _
  rw [hblocks, join_listing, addr_input, code_input]
  rfl

end Runs

/-- A run on arguments that ask for a dump and lead to a configuration. It succeeds exactly if a kernel is read and
    the configuration is supported, and shows the blocks and the listing then. Otherwise it tells the first reason in
    order: with nothing shown if no kernel is read, and with what the buffer has let out of the blocks if the
    configuration is refused. -/
theorem run_dump {reader : DocumentReader} {files : Files} {args : List String} {o : Options} {config : Config}
    (hargs : CommandLine.ofArgs args = .dump o) (hconfig : resolve reader files o = .ok config) :
    ((run reader files args).code = 0 ↔ (∃ kernel, Reads files o config.skipHeader kernel) ∧ Supported config) ∧
    (∀ kernel, Reads files o config.skipHeader kernel → Supported config →
      run reader files args =
        ⟨0, blocksText config.skipHeader kernel ++
          listingText (kernel.start config.skipHeader) (kernel.body config.skipHeader),
          "target: AMDGPU (" ++ Amdgpu.processorOf config.cpu ++ ")\n"⟩) ∧
    (∀ message, Unreadable files o config.skipHeader message →
      run reader files args = ⟨1, "", message ++ "\n"⟩) ∧
    (∀ kernel message, Reads files o config.skipHeader kernel → Refused config message →
      ∃ shown held, run reader files args = ⟨1, shown, message ++ "\n"⟩ ∧
        shown ++ held = blocksText config.skipHeader kernel ∧ held.utf8ByteSize ≤ 8192 ∧
        ((blocksText config.skipHeader kernel).utf8ByteSize < 8192 → shown = "")) ∧
    ((run reader files args).code ≠ 0 → (∃ message, Unreadable files o config.skipHeader message) ∨
      (∃ kernel, Reads files o config.skipHeader kernel) ∧ ∃ message, Refused config message) := by
  have hsupported := @run_of_supported reader files args o config hargs hconfig
  have hrefused := @run_of_refused reader files args o config hargs hconfig
  have hunreadable := @run_of_unreadable reader files args o config hargs hconfig
  have hdown : (run reader files args).code ≠ 0 → (∃ message, Unreadable files o config.skipHeader message) ∨
      (∃ kernel, Reads files o config.skipHeader kernel) ∧ ∃ message, Refused config message := by
    intro hcode
    obtain ⟨kernel, hreads⟩ | hfails := reads_or_unreadable files o config.skipHeader
    · obtain hknown | hfails := supported_or_refused config
      · exact absurd (congrArg Report.code (hsupported hreads hknown)) hcode
      · exact .inr ⟨⟨kernel, hreads⟩, hfails⟩
    · exact .inl hfails
  refine ⟨⟨fun hcode => ?_, fun ⟨⟨kernel, hreads⟩, hknown⟩ => congrArg Report.code (hsupported hreads hknown)⟩,
    fun kernel => hsupported, fun message => hunreadable, fun kernel message => hrefused, hdown⟩
  obtain ⟨kernel, hreads⟩ | ⟨message, hfails⟩ := reads_or_unreadable files o config.skipHeader
  · obtain hknown | ⟨message, hfails⟩ := supported_or_refused config
    · exact ⟨⟨kernel, hreads⟩, hknown⟩
    · obtain ⟨shown, held, hrun, -⟩ := hrefused hreads hfails
      rw [hrun] at hcode
      cases hcode
  · rw [hunreadable hfails] at hcode
    cases hcode

/-- A word and one octet more, taken as they are. -/
theorem run_dump_raw :
    let files := (Directory.mk [("k.bin", [0x00, 0x00, 0x81, 0xbf, 0x7f])]).read
    let args := ["k.bin", "--raw", "--no-header", "--cpu", "gfx906"]
    CommandLine.ofArgs args = .dump { input := "k.bin", cpu := some "gfx906", raw := true, noHeader := true } ∧
    run .inOrder files args =
      ⟨0, "       0  .long 0xbf810000\n       4  .byte 0x7f\n", "target: AMDGPU (gfx906)\n"⟩ := by
  intro files args
  have hargs : CommandLine.ofArgs args =
      .dump { input := "k.bin", cpu := some "gfx906", raw := true, noHeader := true } := by decide
  have hreads : Reads files { input := "k.bin", cpu := some "gfx906", raw := true, noHeader := true } false
      ⟨0, [0x00, 0x00, 0x81, 0xbf, 0x7f], []⟩ := ⟨.raw rfl rfl, fun h => by cases h⟩
  obtain ⟨-, hrun, -⟩ := @run_dump .inOrder files args _ ⟨⟨"AMDGPU"⟩, "amdgcn--amdhsa", "gfx906", false⟩ hargs rfl
  refine ⟨hargs, (hrun _ hreads ⟨rfl, by decide, by decide⟩).trans ?_⟩
  decide

/-! ### A refused run that shows something -/

def nameLine (name : List Char) : KernelArgs.FieldLine := ⟨1, "Name".toList, 1, .plain, name⟩

def eightLines : List KernelArgs.FieldLine :=
  [⟨3, "Size".toList, 1, .plain, ['8']⟩, ⟨3, "Align".toList, 1, .plain, ['8']⟩]

/-- A note with one argument of a name. -/
def namedNote (name : List Char) : KernelArgs.Note := ⟨[], [], 0, 0, [⟨nameLine name, eightLines⟩], none⟩

theorem eight_aligned : ∃ exponent, (8 : UInt32).toNat = Nat.pow 2 exponent := ⟨3, rfl⟩

def namedArg (name : List Char) : KernelArgs.Argument := ⟨some (String.ofList name), none, 8, 8, rfl, eight_aligned⟩

/-- The sections of a code object with this note and no code. -/
def namedSections (name : List Char) : List Section := [⟨".text", 0, []⟩, ⟨".note", 0, (namedNote name).octets⟩]

section Named
variable {name : List Char}

theorem readable_nameLine (h : ∀ c ∈ name, c = 'x') : (nameLine name).Readable 0 where
  deeper := (by decide : 0 < 1)
  colon := (by decide : ':' ∉ "Name".toList)
  bare := (by decide : Text.Bare "Name".toList)
  unmarked := (by decide : ¬['-', ' '] <+: "Name".toList)
  feed := fun hc => (List.mem_append.mp hc).elim (by decide : '\n' ∉ "Name".toList) fun hc => by cases h _ hc
  nul := fun hc => (List.mem_append.mp hc).elim (by decide : '\x00' ∉ "Name".toList) fun hc => by cases h _ hc
  plain := by
    refine fun _ => ⟨⟨fun c hc => h c (List.mem_of_mem_head? hc) ▸ rfl, fun c hc => h c (List.mem_of_getLast? hc) ▸ rfl⟩, ?_⟩
    rintro ⟨inner, hq | hq⟩
    · replace hq : name = '\x27' :: (inner ++ ['\x27']) := hq
      cases h '\x27' (hq ▸ List.mem_cons_self)
    · replace hq : name = '\x22' :: (inner ++ ['\x22']) := hq
      cases h '\x22' (hq ▸ List.mem_cons_self)

theorem ofNote_namedNote (h : ∀ c ∈ name, c = 'x') :
    KernelArgs.ofNote (namedNote name).octets = .ok [(namedArg name).placedAt 0] := by
  have hblocks : ∀ b ∈ (namedNote name).blocks, ∀ line ∈ b.fields, line.Readable 0 :=
    List.forall_mem_singleton.mpr (List.forall_mem_cons.mpr
      ⟨readable_nameLine h, (by decide : ∀ line ∈ eightLines, line.Readable 0)⟩)
  have hformed : (namedNote name).WellFormed :=
    ⟨List.not_mem_nil, List.forall_mem_nil _, hblocks, fun line rest htail => by cases htail⟩
  have height : (toString (8 : UInt32).toNat).toList = ['8'] := by decide
  have htells : List.Forall₂ KernelArgs.Block.Tells (namedNote name).blocks [namedArg name] := by
    refine .cons ⟨congrArg (fun name => [name]) String.toList_ofList.symm, rfl, ?_, ?_⟩ .nil
    · exact congrArg (fun text => [text]) height.symm
    · exact congrArg (fun text => [text]) height.symm
  have hplaced : KernelArgs.LaidOut 0 [namedArg name] [(namedArg name).placedAt 0] :=
    .cons (Nat.dvd_zero _) (Nat.zero_le _) (by decide : 0 < 8) (by decide : 8 < Nat.pow 2 32) (.nil _)
  rw [KernelArgs.Note.ofNote_eq_layout hformed]
  exact KernelArgs.layout_entries hplaced htells 0

theorem length_namedNote (name : List Char) : (namedNote name).octets.length ≤ 4 * name.length + 200 := by
  have htext : Text.ofLines ((namedNote name).opening ++ (namedNote name).argsText :: (namedNote name).listText) =
      "Args:\n - Name: ".toList ++ ((name ++ ['\n']) ++ "   Size: 8\n   Align: 8\n".toList) := rfl
  have hfront : "Args:\n - Name: ".toList.length = 15 := rfl
  have hback : "   Size: 8\n   Align: 8\n".toList.length = 23 := rfl
  have hoctets := Text.length_octets_le ("Args:\n - Name: ".toList ++ ((name ++ ['\n']) ++ "   Size: 8\n   Align: 8\n".toList))
  rw [List.length_append, List.length_append, List.length_append, List.length_singleton, hfront, hback] at hoctets
  rw [KernelArgs.Note.octets, htext, List.length_append, List.length_cons, List.length_append]
  show 0 + (_ + 0 + 1) ≤ _
  omega

theorem parse_namedSections (h : name.length ≤ 8192) :
    ∃ object, CodeObject.parse (CodeObject.image 0xe0 (namedSections name)) = .ok object ∧
      object.section? ".text" = some ⟨".text", 0, []⟩ ∧
      object.section? ".note" = some ⟨".note", 0, (namedNote name).octets⟩ := by
  have hfile : (CodeObject.image 0xe0 (namedSections name)).length < UInt64.size := by
    have hnote := length_namedNote name
    have hbody : (CodeObject.imageBody (namedSections name)).length = (namedNote name).octets.length + 23 := by
      have hnames : (CodeObject.imageNames (namedSections name)).length = 23 :=
        (by decide : (CodeObject.nameOctets [".text", ".note", CodeObject.namesName]).length = 23)
      have hdata : (namedSections name).flatMap Section.data = (namedNote name).octets := List.append_nil _
      rw [CodeObject.imageBody, List.length_append, hnames, hdata]
    have hpadding := CodeObject.padding_lt (CodeObject.headerSize + (CodeObject.imageBody (namedSections name)).length)
    rw [CodeObject.length_image, CodeObject.tableStart]
    show 64 + _ + _ + 4 * 64 < 18446744073709551616
    omega
  have hclean : ∀ s ∈ namedSections name, '\x00' ∉ s.name.toList :=
    List.forall_mem_cons.mpr ⟨(by decide : '\x00' ∉ ".text".toList),
      List.forall_mem_singleton.mpr (by decide : '\x00' ∉ ".note".toList)⟩
  refine ⟨_, CodeObject.parse_image (by decide : 2 ≤ 65533) ?_ hfile hclean, ?_, ?_⟩
  · exact (by decide : (CodeObject.nameOctets [".text", ".note"]).length < Nat.pow 2 32)
  · exact CodeObject.section?_framed (by decide) (by decide) _
  · exact CodeObject.section?_framed (by decide) (by decide) _

/-- The run for a family that no build ships. -/
def namedRun (name : List Char) : Report :=
  run .inOrder (Directory.mk [("k.co", CodeObject.image 0xe0 (namedSections name))]).read
    ["k.co", "--no-header", "--family", "X"]

theorem namedRun_shows (h : ∀ c ∈ name, c = 'x') (hlength : name.length ≤ 8192)
    (hlong : 8192 ≤ (String.ofList name).utf8ByteSize) :
    (namedRun name).code = 1 ∧ (namedRun name).stdout ≠ "" ∧
      (namedRun name).stderr =
        "failed to activate metadata capability for X: toolkit was built without support for X\n" := by
  obtain ⟨object, hobject, htext, hnote⟩ := parse_namedSections hlength
  have hreads : Reads (Directory.mk [("k.co", CodeObject.image 0xe0 (namedSections name))]).read
      { input := "k.co", family := some "X", noHeader := true } false ⟨0, [], [(namedArg name).placedAt 0]⟩ :=
    ⟨.object rfl rfl hobject htext (.note hnote (ofNote_namedNote h)), fun hskip => by cases hskip⟩
  have hrefused : Refused ⟨⟨"X"⟩, "amdgcn--amdhsa", "gfx900", false⟩
      "failed to activate metadata capability for X: toolkit was built without support for X" :=
    .family (by decide)
  have hargs : CommandLine.ofArgs ["k.co", "--no-header", "--family", "X"] =
      .dump { input := "k.co", family := some "X", noHeader := true } := by decide
  have hconfig : resolve .inOrder (Directory.mk [("k.co", CodeObject.image 0xe0 (namedSections name))]).read
      { input := "k.co", family := some "X", noHeader := true } =
      .ok ⟨⟨"X"⟩, "amdgcn--amdhsa", "gfx900", false⟩ := rfl
  obtain ⟨shown, held, hrun, hblocks, hheld, -⟩ := run_of_refused hargs hconfig hreads hrefused
  have hsize : 8210 ≤ (blocksText false ⟨0, [], [(namedArg name).placedAt 0]⟩).utf8ByteSize := by
    have hheading : "kernel arguments:\n".utf8ByteSize = 18 := by decide
    have hline : (argsText [(namedArg name).placedAt 0]) =
        "kernel arguments:\n" ++ argLine ((namedArg name).placedAt 0) := by
      rw [argsText, if_neg (List.cons_ne_nil _ _), List.map_singleton, String.join_cons, String.join_nil, String.append_empty]
    have hname : ((namedArg name).placedAt 0).name = String.ofList name := rfl
    show 8210 ≤ ("" ++ argsText _).utf8ByteSize
    rw [String.empty_append, hline, String.utf8ByteSize_append, hheading, argLine, hname]
    simp only [String.utf8ByteSize_append]
    omega
  -- The blocks are longer than what may be held back of them.
  have hshown : shown ≠ "" := by
    rintro rfl
    rw [← hblocks, String.empty_append] at hsize
    omega
  rw [namedRun, hrun]
  exact ⟨rfl, hshown, rfl⟩

end Named

theorem utf8ByteSize_letters (n : Nat) : (String.ofList (List.replicate n 'x')).utf8ByteSize = n := by
  induction n with
  | zero => rfl
  | succ n ih =>
    rw [List.replicate_succ, String.ofList_cons, String.utf8ByteSize_append, ih, Nat.add_comm]
    rfl

/-- With a name that fills the buffer, a run that fails for its family shows something. -/
theorem refused_run_shows :
    (namedRun (List.replicate 8192 'x')).code = 1 ∧ (namedRun (List.replicate 8192 'x')).stdout ≠ "" ∧
      (namedRun (List.replicate 8192 'x')).stderr =
        "failed to activate metadata capability for X: toolkit was built without support for X\n" :=
  namedRun_shows (fun _ hc => (List.mem_replicate.mp hc).2) (Nat.le_of_eq List.length_replicate)
    (Nat.le_of_eq (utf8ByteSize_letters 8192).symm)

end GpuListing.Dump
