import GpuListing.Dump.Report
import GpuListing.Proofs.Config.Layers

/-! # Command lines and configurations

The arguments after the input are read as items, each a flag or a setting with the argument after it as its value. They
either are the words of such items from left to right, or stop being so at an argument that is told before anything is
read. The configuration is the default one under the document of the last configuration file under the last value of
each setting; the run fails if the file or else the family is at fault, whatever is set over the fault. -/

namespace GpuListing.Dump

/-! ### Items -/

/-- An option without a value. -/
inductive Flag where
  | raw
  | noHeader
  deriving DecidableEq

/-- An option with a value. -/
inductive Setting where
  | config
  | family
  | triple
  | cpu
  deriving DecidableEq

namespace Flag

/-- The flag as an argument. -/
def name : Flag → String
  | raw => "--raw"
  | noHeader => "--no-header"

/-- The options with the flag set. -/
def set (o : Options) : Flag → Options
  | raw => { o with raw := true }
  | noHeader => { o with noHeader := true }

/-- The flag is set in the options. -/
def get (o : Options) : Flag → Bool
  | raw => o.raw
  | noHeader => o.noHeader

theorem setFlag?_eq_some {o next : Options} {argument : String} :
    o.setFlag? argument = some next ↔ ∃ flag : Flag, argument = flag.name ∧ next = flag.set o := by
  constructor
  · intro h
    rw [Options.setFlag?] at h
    split at h
    · next hraw => exact ⟨raw, hraw, (Option.some.inj h).symm⟩
    · split at h
      · next hheader => exact ⟨noHeader, hheader, (Option.some.inj h).symm⟩
      · cases h
  · rintro ⟨flag, rfl, rfl⟩
    cases flag <;> rfl

end Flag

namespace Setting

/-- The setting as an argument. -/
def name : Setting → String
  | config => "--config"
  | family => "--family"
  | triple => "--triple"
  | cpu => "--cpu"

/-- The options with a value of the setting. -/
def put (o : Options) : Setting → String → Options
  | config, value => { o with config := some value }
  | family, value => { o with family := some value }
  | triple, value => { o with triple := some value }
  | cpu, value => { o with cpu := some value }

/-- The value of the setting in the options. -/
def get (o : Options) : Setting → Option String
  | config => o.config
  | family => o.family
  | triple => o.triple
  | cpu => o.cpu

theorem setValue?_eq_some {o : Options} {argument : String} {put : String → Options} :
    o.setValue? argument = some put ↔ ∃ setting : Setting, argument = setting.name ∧ put = setting.put o := by
  constructor
  · intro h
    rw [Options.setValue?] at h
    split at h
    · next hconfig => exact ⟨config, hconfig, (Option.some.inj h).symm⟩
    split at h
    · next hfamily => exact ⟨family, hfamily, (Option.some.inj h).symm⟩
    split at h
    · next htriple => exact ⟨triple, htriple, (Option.some.inj h).symm⟩
    split at h
    · next hcpu => exact ⟨cpu, hcpu, (Option.some.inj h).symm⟩
    · cases h
  · rintro ⟨setting, rfl, rfl⟩
    cases setting <;> rfl

end Setting

/-- An item of the command line after the input. -/
inductive Item where
  | flag (flag : Flag)
  | setting (setting : Setting) (value : String)
  deriving DecidableEq

namespace Item

/-- The arguments of an item. -/
def words : Item → List String
  | flag f => [f.name]
  | setting s value => [s.name, value]

/-- The options with an item. -/
def put (o : Options) : Item → Options
  | flag f => f.set o
  | setting s value => s.put o value

/-- The value that an item gives to a setting. -/
def value? (s : Setting) : Item → Option String
  | flag _ => none
  | setting other value => if other = s then some value else none

end Item

/-- The arguments of items. -/
def wordsOf (items : List Item) : List String := items.flatMap Item.words

/-- The last value of a setting. -/
def lastOf (s : Setting) (items : List Item) : Option String := (items.filterMap (Item.value? s)).getLast?

/-- The options of an input and items. -/
def optionsOf (input : String) (items : List Item) : Options := items.foldl Item.put { input := input }

/-- Arguments begin with no item, which is told by a message. -/
inductive Misfit : List String → String → Prop where
  | unknown {argument : String} {rest : List String} (hflag : ∀ f : Flag, argument ≠ f.name)
      (hsetting : ∀ s : Setting, argument ≠ s.name) : Misfit (argument :: rest) ("unknown option: " ++ argument)
  | missing {s : Setting} : Misfit [s.name] ("missing value for " ++ s.name)

/-! ### Reading items -/

theorem add_words (o : Options) (items : List Item) (after : List String) :
    o.add (wordsOf items ++ after) = (items.foldl Item.put o).add after := by
  induction items generalizing o with
  | nil => rfl
  | cons item rest ih =>
    rw [wordsOf, List.flatMap_cons, List.append_assoc, List.foldl_cons, ← ih]
    cases item with
    | flag f => cases f <;> rfl
    | setting s value => cases s <;> rfl

theorem Misfit.add {after : List String} {message : String} (h : Misfit after message) (o : Options) :
    ∃ error, o.add after = .error error ∧ error.message = message := by
  cases h with
  | @unknown argument rest hflag hsetting =>
    have hno : o.setFlag? argument = none := by
      rw [Option.eq_none_iff_forall_ne_some]
      intro next hnext
      obtain ⟨f, hf, -⟩ := Flag.setFlag?_eq_some.1 hnext
      exact hflag f hf
    have hno' : o.setValue? argument = none := by
      rw [Option.eq_none_iff_forall_ne_some]
      intro put hput
      obtain ⟨s, hs, -⟩ := Setting.setValue?_eq_some.1 hput
      exact hsetting s hs
    exact ⟨.unknownOption argument, by simp only [Options.add, hno, hno'], rfl⟩
  | @missing s => exact ⟨.missingValue s.name, by cases s <;> rfl, rfl⟩

/-- Arguments are the words of items, or the words of some items with a misfit after them. -/
def Splits (rest : List String) : Prop :=
  (∃ items, rest = wordsOf items) ∨ ∃ items after message, rest = wordsOf items ++ after ∧ Misfit after message

theorem Splits.cons {rest : List String} (item : Item) (h : Splits rest) : Splits (item.words ++ rest) := by
  obtain ⟨items, rfl⟩ | ⟨items, after, message, rfl, hmisfit⟩ := h
  · exact .inl ⟨item :: items, rfl⟩
  · exact .inr ⟨item :: items, after, message, (List.append_assoc ..).symm, hmisfit⟩

theorem splits (o : Options) (rest : List String) : Splits rest := by
  fun_induction Options.add o rest with
  | case1 o => exact .inl ⟨[], rfl⟩
  | case2 o argument rest next hflag ih =>
    obtain ⟨f, rfl, -⟩ := Flag.setFlag?_eq_some.1 hflag
    exact ih.cons (.flag f)
  | case3 o argument rest hflag hvalue =>
    refine .inr ⟨[], argument :: rest, _, rfl, .unknown (fun f hf => ?_) fun s hs => ?_⟩
    · cases hflag.symm.trans (Flag.setFlag?_eq_some.2 ⟨f, hf, rfl⟩)
    · cases hvalue.symm.trans (Setting.setValue?_eq_some.2 ⟨s, hs, rfl⟩)
  | case4 o argument hflag put hvalue =>
    obtain ⟨s, rfl, -⟩ := Setting.setValue?_eq_some.1 hvalue
    exact .inr ⟨[], [s.name], _, rfl, .missing⟩
  | case5 o argument hflag put value rest hvalue ih =>
    obtain ⟨s, rfl, -⟩ := Setting.setValue?_eq_some.1 hvalue
    exact ih.cons (.setting s value)

section Reading
variable {input : String} {items : List Item} {rest after : List String} {message : String}

theorem parse_wordsOf (input : String) (items : List Item) :
    Options.parse input (wordsOf items) = .ok (optionsOf input items) := by
  have hadd := add_words { input := input } items []
  rwa [List.append_nil] at hadd

theorem Misfit.parse (h : Misfit after message) (input : String) (items : List Item) :
    ∃ error, Options.parse input (wordsOf items ++ after) = .error error ∧ error.message = message := by
  rw [Options.parse, add_words]
  exact h.add _

/-- The options are read exactly if the arguments are the words of items. -/
theorem exists_parse_iff : (∃ o, Options.parse input rest = .ok o) ↔ ∃ items, rest = wordsOf items := by
  constructor
  · rintro ⟨o, hparse⟩
    obtain hitems | ⟨items, after, message, rfl, hmisfit⟩ := splits { input := input } rest
    · exact hitems
    · obtain ⟨error, herror, -⟩ := hmisfit.parse input items
      cases hparse.symm.trans herror
  · rintro ⟨items, rfl⟩
    exact ⟨_, parse_wordsOf input items⟩

theorem ofArgs_eq (hhelp : input ≠ "-h" ∧ input ≠ "--help") :
    CommandLine.ofArgs (input :: rest) =
      match Options.parse input rest with
      | .ok options => .dump options
      | .error error => .invalid error := by
  rw [CommandLine.ofArgs]
  exact if_neg (not_or.2 ⟨hhelp.2, hhelp.1⟩)

theorem ofArgs_eq_dump_iff {o : Options} (hhelp : input ≠ "-h" ∧ input ≠ "--help") :
    CommandLine.ofArgs (input :: rest) = .dump o ↔ Options.parse input rest = .ok o := by
  rw [ofArgs_eq hhelp]
  split
  · next found hfound => rw [hfound, CommandLine.dump.injEq, Except.ok.injEq]
  · next error herror => simp [herror]

theorem Misfit.run (h : Misfit after message) (hhelp : input ≠ "-h" ∧ input ≠ "--help")
    (reader : DocumentReader) (files : Files) :
    run reader files (input :: (wordsOf items ++ after)) = ⟨1, "", message ++ "\n"⟩ := by
  obtain ⟨error, herror, rfl⟩ := h.parse input items
  rw [Dump.run, ofArgs_eq hhelp, herror]
  rfl

end Reading

/-! ### Options of items -/

theorem lastOf_cons (s : Setting) (item : Item) (items : List Item) :
    lastOf s (item :: items) = (lastOf s items).or (item.value? s) := by
  rw [lastOf, List.filterMap_cons, lastOf]
  cases item.value? s with
  | none => exact (Option.or_none ..).symm
  | some value =>
    simp only [List.getLast?_cons]
    cases (items.filterMap (Item.value? s)).getLast? <;> rfl

theorem get_put (s : Setting) (o : Options) (item : Item) : s.get (item.put o) = (item.value? s).or (s.get o) := by
  cases item with
  | flag f => cases f <;> cases s <;> rfl
  | setting other value => cases other <;> cases s <;> rfl

/-- A setting has its last value. -/
theorem get_foldl_put (s : Setting) (o : Options) (items : List Item) :
    s.get (items.foldl Item.put o) = (lastOf s items).or (s.get o) := by
  induction items generalizing o with
  | nil => rfl
  | cons item rest ih => rw [List.foldl_cons, ih, get_put, lastOf_cons, Option.or_assoc]

theorem flag_get_put (f : Flag) (o : Options) (item : Item) :
    f.get (item.put o) = true ↔ item = .flag f ∨ f.get o = true := by
  cases item with
  | flag other => cases other <;> cases f <;> simp [Item.put, Flag.set, Flag.get]
  | setting s value => cases s <;> cases f <;> simp [Item.put, Setting.put, Flag.get]

/-- A flag is set if it is among the items. -/
theorem flag_get_foldl_put (f : Flag) (o : Options) (items : List Item) :
    f.get (items.foldl Item.put o) = true ↔ .flag f ∈ items ∨ f.get o = true := by
  induction items generalizing o with
  | nil => simp
  | cons item rest ih => rw [List.foldl_cons, ih, flag_get_put, List.mem_cons, or_left_comm, or_assoc, eq_comm]

theorem input_foldl_put (o : Options) (items : List Item) : (items.foldl Item.put o).input = o.input := by
  induction items generalizing o with
  | nil => rfl
  | cons item rest ih =>
    rw [List.foldl_cons, ih]
    cases item with
    | flag f => cases f <;> rfl
    | setting s value => cases s <;> rfl

/-! ### The configuration -/

section Configuration
variable {reader : DocumentReader} {files : Files} {items : List Item} {path : String} {config : Config}
  {error : DumpError}

/-- The document of the last configuration file; without a file it sets nothing. -/
def InForce (reader : DocumentReader) (files : Files) (items : List Item) (fields : Toml.Fields) : Prop :=
  match lastOf .config items with
  | none => fields = []
  | some path => ∃ data text, files path = .ok data ∧ Text.decode? data = some text ∧
      reader.read (String.ofList text) = some fields

/-- The configuration of items over a document over the defaults. -/
structure Effective (items : List Item) (fields : Toml.Fields) (config : Config) : Prop where
  family : Config.Field.family.From
    (((lastOf .family items).map .text).or (Config.Field.family.inDocument fields)) .default config
  triple : Config.Field.triple.From
    (((lastOf .triple items).map .text).or (Config.Field.triple.inDocument fields)) .default config
  cpu : Config.Field.cpu.From
    (((lastOf .cpu items).map .text).or (Config.Field.cpu.inDocument fields)) .default config
  skipHeader : config.skipHeader = false ↔
    .flag .noHeader ∈ items ∨ Config.Field.skipHeader.inDocument fields = some (.boolean false)

/-- Why there is no configuration: the last configuration file cannot be read, or is no text, or no configuration, or it
is one and the last family is no name. -/
inductive Faulty (reader : DocumentReader) (files : Files) (items : List Item) : DumpError → Prop where
  | unreadable {path : String} {error : FileError} (hpath : lastOf .config items = some path)
      (h : files path = .error error) : Faulty reader files items (.unreadableConfig path error)
  | noText {path : String} {data : Bytes} (hpath : lastOf .config items = some path) (hread : files path = .ok data)
      (h : Text.decode? data = none) :
      Faulty reader files items (.unreadableConfig path (.system "stream did not contain valid UTF-8"))
  | invalid {path : String} {data : Bytes} {text : List Char} {error : ConfigError}
      (hpath : lastOf .config items = some path) (hread : files path = .ok data) (htext : Text.decode? data = some text)
      (h : Config.parse reader (String.ofList text) = .error error) :
      Faulty reader files items (.invalidConfig path (reader.tell (String.ofList text) error))
  | family {name : String} {error : FamilyError}
      (hconfig : ∀ path, lastOf .config items = some path → ∃ base, loadConfig reader files path = .ok base)
      (hname : lastOf .family items = some name) (h : Family.parse name = .error error) :
      Faulty reader files items (.badFamily error)

theorem loadConfig_of_data {data : Bytes} (hread : files path = .ok data) :
    loadConfig reader files path =
      match Text.decode? data with
      | none => .error (.unreadableConfig path (.system "stream did not contain valid UTF-8"))
      | some text =>
        (Config.parse reader (String.ofList text)).mapError fun error =>
          .invalidConfig path (reader.tell (String.ofList text) error) := by
  rw [loadConfig, hread]
  rfl

/-- The configuration in a file, and the document that it is read from. -/
theorem loadConfig_eq_ok (h : loadConfig reader files path = .ok config) :
    ∃ data text fields, files path = .ok data ∧ Text.decode? data = some text ∧
      reader.read (String.ofList text) = some fields ∧ Config.ofFields fields = .ok config := by
  obtain ⟨data, hread, h⟩ := bind_eq_ok h
  cases htext : Text.decode? data with
  | none => rw [htext] at h; cases h
  | some text =>
    rw [htext] at h
    have hconfig : Config.parse reader (String.ofList text) = .ok config := mapError_eq_ok h
    rw [Config.parse] at hconfig
    split at hconfig
    · cases hconfig
    · next fields hparse =>
      exact ⟨data, text, fields, mapError_eq_ok hread, htext, hparse, mapError_eq_ok hconfig⟩

/-- Why a file holds no configuration. -/
theorem loadConfig_eq_error (hpath : lastOf .config items = some path)
    (h : loadConfig reader files path = .error error) : Faulty reader files items error := by
  obtain hread | ⟨data, hread, h⟩ := bind_eq_error h
  · obtain ⟨cause, hfile, rfl⟩ := mapError_eq_error hread
    exact .unreadable hpath hfile
  · have hread := mapError_eq_ok hread
    cases htext : Text.decode? data with
    | none =>
      rw [htext] at h
      cases h
      exact .noText hpath hread htext
    | some text =>
      rw [htext] at h
      obtain ⟨cause, hparse, rfl⟩ := mapError_eq_error h
      exact .invalid hpath hread htext hparse

/-- The configuration under the settings. -/
def baseOf (reader : DocumentReader) (files : Files) : Option String → Except DumpError Config
  | none => .ok .default
  | some path => loadConfig reader files path

/-- The family of the setting, or the one under it. -/
def familyOf (base : Config) : Option String → Except DumpError Family
  | none => .ok base.family
  | some name => (Family.parse name).mapError .badFamily

theorem setting_optionsOf (s : Setting) (input : String) (items : List Item) :
    s.get (optionsOf input items) = lastOf s items := by
  rw [optionsOf, get_foldl_put]
  cases s <;> exact Option.or_none ..

theorem flag_optionsOf (f : Flag) (input : String) (items : List Item) :
    f.get (optionsOf input items) = true ↔ .flag f ∈ items := by
  rw [optionsOf, flag_get_foldl_put]
  cases f <;> simp [Flag.get]

/-- The configuration of items: what is under the settings, then the settings. -/
theorem resolve_optionsOf (reader : DocumentReader) (files : Files) (input : String) (items : List Item) :
    resolve reader files (optionsOf input items) =
      baseOf reader files (lastOf .config items) >>= fun base => familyOf base (lastOf .family items) >>= fun family =>
        .ok ⟨family, (lastOf .triple items).getD base.triple, (lastOf .cpu items).getD base.cpu,
          base.skipHeader && !decide (.flag .noHeader ∈ items)⟩ := by
  have hheader : decide (.flag .noHeader ∈ items) = (optionsOf input items).noHeader :=
    Bool.eq_iff_iff.2 (decide_eq_true_iff.trans (flag_optionsOf .noHeader input items).symm)
  rw [← setting_optionsOf .config input items, ← setting_optionsOf .family input items,
    ← setting_optionsOf .triple input items, ← setting_optionsOf .cpu input items, hheader, resolve]
  simp only [Setting.get]
  cases (optionsOf input items).config <;> cases (optionsOf input items).family <;> rfl

/-! #### What is in force -/

theorem from_baseOf {base : Config} (h : baseOf reader files (lastOf .config items) = .ok base) :
    ∃ fields, InForce reader files items fields ∧
      ∀ {α : Type} (field : Config.Field α), field.From (field.inDocument fields) .default base := by
  unfold InForce
  cases hpath : lastOf .config items with
  | none =>
    rw [hpath] at h
    cases h
    exact ⟨[], rfl, fun field => (rfl : field.get _ = _)⟩
  | some path =>
    rw [hpath] at h
    obtain ⟨data, text, fields, hread, htext, hparse, hfields⟩ := loadConfig_eq_ok h
    exact ⟨fields, ⟨data, text, hread, htext, hparse⟩,
      fun field => Config.from_ofFields (reader.distinct hparse) hfields field⟩

theorem from_familyOf {base : Config} {named : Option String} (h : familyOf base named = .ok config.family) :
    Config.Field.family.From (named.map .text) base config := by
  cases named with
  | none => exact (Except.ok.inj h).symm
  | some name =>
    have hparse : Family.parse name = .ok config.family := mapError_eq_ok h
    change (Family.parse name).mapError ValueError.notFamily = .ok config.family
    rw [hparse]
    rfl

theorem from_getD {field : Config.Field String} {base : Config} {value : Option String}
    (hread : field.read = Shape.toText) (h : field.get config = value.getD (field.get base)) :
    field.From (value.map .text) base config := by
  cases value with
  | none => exact h
  | some text =>
    have hget : field.get config = text := h
    change field.read (.text text) = .ok (field.get config)
    rw [hread, hget]
    rfl

/-- A configuration takes a header unless its document says otherwise. -/
theorem skipHeader_eq_false_iff {given : Option Shape} (h : Config.Field.skipHeader.From given .default config) :
    config.skipHeader = false ↔ given = some (.boolean false) := by
  cases given with
  | none =>
    have hskip : config.skipHeader = true := h
    simp [hskip]
  | some value =>
    have hread : value.toBoolean = .ok config.skipHeader := h
    cases value with
    | boolean skip => cases hread; simp
    | _ => cases hread

theorem effective_of_resolve {input : String} (h : resolve reader files (optionsOf input items) = .ok config) :
    ∃ fields, InForce reader files items fields ∧ Effective items fields config := by
  rw [resolve_optionsOf] at h
  obtain ⟨base, hbase, h⟩ := bind_eq_ok h
  obtain ⟨family, hnamed, h⟩ := bind_eq_ok h
  cases h
  obtain ⟨fields, hfields, hfrom⟩ := from_baseOf hbase
  refine ⟨fields, hfields, ?_, ?_, ?_, ?_⟩
  · exact (from_familyOf hnamed).over (hfrom .family)
  · exact (from_getD rfl rfl).over (hfrom .triple)
  · exact (from_getD rfl rfl).over (hfrom .cpu)
  · rw [← skipHeader_eq_false_iff (hfrom .skipHeader)]
    cases base.skipHeader <;> simp

/-! #### Why there is no configuration -/

theorem faulty_of_baseOf (h : baseOf reader files (lastOf .config items) = .error error) :
    Faulty reader files items error := by
  cases hpath : lastOf .config items with
  | none => rw [hpath] at h; cases h
  | some path =>
    rw [hpath] at h
    exact loadConfig_eq_error hpath h

theorem faulty_of_familyOf {base : Config} (hbase : baseOf reader files (lastOf .config items) = .ok base)
    (h : familyOf base (lastOf .family items) = .error error) : Faulty reader files items error := by
  cases hname : lastOf .family items with
  | none => rw [hname] at h; cases h
  | some name =>
    rw [hname] at h
    obtain ⟨cause, hparse, rfl⟩ := mapError_eq_error h
    refine .family (fun path hpath => ⟨base, ?_⟩) hname hparse
    rwa [hpath] at hbase

theorem Faulty.baseOf_or (h : Faulty reader files items error) :
    baseOf reader files (lastOf .config items) = .error error ∨
      ∃ base, baseOf reader files (lastOf .config items) = .ok base ∧
        familyOf base (lastOf .family items) = .error error := by
  cases h with
  | unreadable hpath h =>
    refine .inl ?_
    rw [hpath, baseOf, loadConfig, h]
    rfl
  | noText hpath hread h => exact .inl (by rw [hpath, baseOf, loadConfig_of_data hread, h])
  | invalid hpath hread htext h =>
    refine .inl ?_
    rw [hpath, baseOf, loadConfig_of_data hread, htext]
    simp only [h]
    rfl
  | @family name cause hloads hname h =>
    have hnamed (base : Config) : familyOf base (lastOf .family items) = .error (.badFamily cause) := by
      rw [hname, familyOf, h]
      rfl
    cases hpath : lastOf .config items with
    | none => exact .inr ⟨_, rfl, hnamed _⟩
    | some path =>
      obtain ⟨base, hbase⟩ := hloads path hpath
      exact .inr ⟨base, hbase, hnamed base⟩

theorem resolve_eq_error_iff {input : String} :
    resolve reader files (optionsOf input items) = .error error ↔ Faulty reader files items error := by
  rw [resolve_optionsOf]
  constructor
  · intro h
    obtain hbase | ⟨base, hbase, h⟩ := bind_eq_error h
    · exact faulty_of_baseOf hbase
    obtain hnamed | ⟨family, -, h⟩ := bind_eq_error h
    · exact faulty_of_familyOf hbase hnamed
    · cases h
  · intro h
    obtain hbase | ⟨base, hbase, hnamed⟩ := h.baseOf_or
    · rw [hbase]
      rfl
    · simp only [hbase, bind, Except.bind, hnamed]

theorem Faulty.run {input : String} (h : Faulty reader files items error) (hhelp : input ≠ "-h" ∧ input ≠ "--help") :
    Dump.run reader files (input :: wordsOf items) = ⟨1, "", error.message ++ "\n"⟩ := by
  have hargs := (ofArgs_eq_dump_iff hhelp).2 (parse_wordsOf input items)
  have hread : readInput reader files (optionsOf input items) = .error error := by
    rw [readInput, resolve_eq_error_iff.2 h]
    rfl
  rw [Dump.run, hargs]
  simp only [hread]
  rfl

/-- What is read is to be dumped for the configuration of the options. -/
theorem config_readInput {o : Options} {read : Input} (hconfig : resolve reader files o = .ok config)
    (h : readInput reader files o = .ok read) : read.config = config := by
  obtain ⟨found, hfound, h⟩ := bind_eq_ok h
  obtain ⟨kernel, -, h⟩ := bind_eq_ok h
  obtain ⟨parts, -, h⟩ := bind_eq_ok h
  cases h
  exact Except.ok.inj (hfound.symm.trans hconfig)

end Configuration

/-- Behind an input that asks for no help, arguments are read exactly if they are the words of items, and then the
options are those of the items. If they are not, the run fails at the first words that are none, whatever the files
are. A run on items fails if the last configuration file or else the last family is at fault, and otherwise its
configuration has each field from the last setting, the document in force or the defaults, the first of them that gives
it. What is a document, and what the message goes on with for a file that is no configuration, is up to the reader of
documents. -/
theorem items_or_misfit {input : String} (rest : List String) (hhelp : input ≠ "-h" ∧ input ≠ "--help") :
    ((∃ o, CommandLine.ofArgs (input :: rest) = .dump o) ↔ ∃ items, rest = wordsOf items) ∧
    ((¬∃ items, rest = wordsOf items) →
      ∃ items after message, rest = wordsOf items ++ after ∧ Misfit after message) ∧
    (∀ items after message, rest = wordsOf items ++ after → Misfit after message →
      ∀ reader files, run reader files (input :: rest) = ⟨1, "", message ++ "\n"⟩) ∧
    (∀ items, rest = wordsOf items →
      ∃ o, CommandLine.ofArgs (input :: rest) = .dump o ∧ o.input = input ∧ (o.raw = true ↔ .flag .raw ∈ items) ∧
        ∀ reader files,
          (∀ config, resolve reader files o = .ok config →
            (∃ fields, InForce reader files items fields ∧ Effective items fields config) ∧
              ∀ read, readInput reader files o = .ok read → read.config = config) ∧
          (∀ error, resolve reader files o = .error error ↔ Faulty reader files items error) ∧
          (∀ error, Faulty reader files items error →
            run reader files (input :: rest) = ⟨1, "", error.message ++ "\n"⟩)) := by
  refine ⟨?_, fun hnone => ?_, ?_, ?_⟩
  · simp only [ofArgs_eq_dump_iff hhelp]
    exact exists_parse_iff
  · exact (splits { input := input } rest).resolve_left hnone
  · rintro items after message rfl hmisfit reader files
    exact hmisfit.run hhelp reader files
  · rintro items rfl
    refine ⟨optionsOf input items, (ofArgs_eq_dump_iff hhelp).2 (parse_wordsOf input items),
      input_foldl_put _ items, flag_optionsOf .raw input items, fun reader files => ⟨fun config h => ?_, ?_, ?_⟩⟩
    · exact ⟨effective_of_resolve h, fun read hread => config_readInput h hread⟩
    · exact fun error => resolve_eq_error_iff
    · exact fun error h => h.run hhelp

/-- An input and a value that are spelled like options, and a last option without a value. -/
theorem optionLike_misfit :
    ("--family" ≠ "-h" ∧ "--family" ≠ "--help") ∧
      ∀ reader files, run reader files ["--family", "--config", "--cpu", "--raw", "--cpu"] =
        ⟨1, "", "missing value for --cpu\n"⟩ :=
  ⟨by decide, (items_or_misfit ["--config", "--cpu", "--raw", "--cpu"] (by decide)).2.2.1
    [.setting .config "--cpu", .flag .raw] ["--cpu"] _ rfl (.missing (s := .cpu))⟩

end GpuListing.Dump
