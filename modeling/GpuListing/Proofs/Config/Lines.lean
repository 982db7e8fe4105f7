import GpuListing.Proofs.Config.Layers
import GpuListing.Proofs.FamilyName
import GpuListing.Proofs.FamilyOrder
import GpuListing.Proofs.Toml.Lines

/-! # Configurations line by line

Each entry of a document of lines is taken by the field that its key names, or it is refused for a reason of its own.
What a reader hands over for such a document is taken as a premise: the entries of its lines, in the order of their
keys. The document is then a configuration if every entry is taken, whatever the order of the lines. If some are
refused, the error is that of the refused entry whose key comes first, since the entries in front of it are taken. -/

namespace GpuListing

namespace Config
open Toml (Scalar nodesOf LinesOf writeLines)

/-! ### Entries that are taken, and those that are not -/

/-- The field that the key names takes the value. -/
inductive Takes : Toml.Entry → Prop where
  | family {name : String} {family : Family} : Family.parse name = .ok family → Takes ("family", .text name)
  | triple (triple : String) : Takes ("triple", .text triple)
  | cpu (cpu : String) : Takes ("cpu", .text cpu)
  | skipHeader (skip : Bool) : Takes ("skip_kernel_header", .boolean skip)

/-- The entry is refused: its key is unknown, or its value is not of the kind that the key takes. -/
inductive Refuses : Toml.Entry → FieldError → Prop where
  | unknown {key : String} {value : Scalar} : key ∉ ["family", "triple", "cpu", "skip_kernel_header"] →
      Refuses (key, value) (.unknown key)
  | notText {key : String} {value : Scalar} : key ∈ ["family", "triple", "cpu"] → (∀ text, value ≠ .text text) →
      Refuses (key, value) (.badValue (.notText value.node.shape))
  | notFamily {name : String} {error : FamilyError} : Family.parse name = .error error →
      Refuses ("family", .text name) (.badValue (.notFamily error))
  | notBoolean {value : Scalar} : (∀ b, value ≠ .boolean b) →
      Refuses ("skip_kernel_header", value) (.badValue (.notBoolean value.node.shape))

section Entry
variable {entry : Toml.Entry} {error : FieldError}

theorem takes_or_refuses (entry : Toml.Entry) : Takes entry ∨ ∃ error, Refuses entry error := by
  obtain ⟨key, value⟩ := entry
  by_cases hknown : key ∈ ["family", "triple", "cpu", "skip_kernel_header"]
  · simp only [List.mem_cons, List.not_mem_nil, or_false] at hknown
    rcases hknown with rfl | rfl | rfl | rfl
    · cases value with
      | text name =>
        cases hname : Family.parse name with
        | ok family => exact .inl (.family hname)
        | error error => exact .inr ⟨_, .notFamily hname⟩
      | boolean _ | integer _ => exact .inr ⟨_, .notText (by decide) nofun⟩
    · cases value with
      | text triple => exact .inl (.triple triple)
      | boolean _ | integer _ => exact .inr ⟨_, .notText (by decide) nofun⟩
    · cases value with
      | text cpu => exact .inl (.cpu cpu)
      | boolean _ | integer _ => exact .inr ⟨_, .notText (by decide) nofun⟩
    · cases value with
      | boolean skip => exact .inl (.skipHeader skip)
      | text _ | integer _ => exact .inr ⟨_, .notBoolean nofun⟩
  · exact .inr ⟨_, .unknown hknown⟩

section Keys
variable (c : Config) (value : Shape)

theorem set_family : c.set "family" value = do return { c with family := ← value.toFamily.mapError .badValue } := rfl

theorem set_triple : c.set "triple" value = do return { c with triple := ← value.toText.mapError .badValue } := rfl

theorem set_cpu : c.set "cpu" value = do return { c with cpu := ← value.toText.mapError .badValue } := rfl

theorem set_skipHeader :
    c.set "skip_kernel_header" value = do return { c with skipHeader := ← value.toBoolean.mapError .badValue } := rfl

end Keys

/-- What is taken is set, whatever was set before. -/
theorem set_of_takes (h : Takes entry) (c : Config) : ∃ next, c.set entry.1 entry.2.node.shape = .ok next := by
  cases h with
  | @family name family hname =>
    refine ⟨{ c with family := family }, ?_⟩
    rw [Scalar.node, Toml.Node.shape, set_family, Family.toFamily_text, hname]
    rfl
  | triple triple => exact ⟨{ c with triple := triple }, rfl⟩
  | cpu cpu => exact ⟨{ c with cpu := cpu }, rfl⟩
  | skipHeader skip => exact ⟨{ c with skipHeader := skip }, rfl⟩

theorem toText_of_ne {value : Scalar} (h : ∀ text, value ≠ .text text) :
    value.node.shape.toText = .error (.notText value.node.shape) := by
  cases value with
  | text text => exact absurd rfl (h text)
  | boolean _ | integer _ => rfl

theorem toBoolean_of_ne {value : Scalar} (h : ∀ b, value ≠ .boolean b) :
    value.node.shape.toBoolean = .error (.notBoolean value.node.shape) := by
  cases value with
  | boolean b => exact absurd rfl (h b)
  | text _ | integer _ => rfl

/-- What is refused cannot be set, whatever was set before. -/
theorem set_of_refuses (h : Refuses entry error) (c : Config) : c.set entry.1 entry.2.node.shape = .error error := by
  cases h with
  | @unknown key value hkey =>
    simp only [List.mem_cons, List.not_mem_nil, or_false, not_or] at hkey
    simp only [set, hkey, if_false]
  | @notText key value hkey hvalue =>
    have hread := toText_of_ne hvalue
    simp only [List.mem_cons, List.not_mem_nil, or_false] at hkey
    rcases hkey with rfl | rfl | rfl
    · rw [set_family, Shape.toFamily, hread]
      rfl
    · rw [set_triple, hread]
      rfl
    · rw [set_cpu, hread]
      rfl
  | @notFamily name error hname =>
    rw [Scalar.node, Toml.Node.shape, set_family, Family.toFamily_text, hname]
    rfl
  | @notBoolean value hvalue =>
    rw [set_skipHeader, toBoolean_of_ne hvalue]
    rfl

theorem Refuses.not_takes (h : Refuses entry error) : ¬Takes entry := by
  intro htakes
  obtain ⟨next, hnext⟩ := set_of_takes htakes default
  cases (set_of_refuses h default).symm.trans hnext

theorem takes_of_set {c next : Config} (h : c.set entry.1 entry.2.node.shape = .ok next) : Takes entry := by
  refine (takes_or_refuses entry).resolve_right fun ⟨error, hrefuses⟩ => ?_
  cases h.symm.trans (set_of_refuses hrefuses c)

theorem refuses_of_set {c : Config} (h : c.set entry.1 entry.2.node.shape = .error error) : Refuses entry error := by
  rcases takes_or_refuses entry with htakes | ⟨other, hrefuses⟩
  · obtain ⟨next, hnext⟩ := set_of_takes htakes c
    cases h.symm.trans hnext
  · cases h.symm.trans (set_of_refuses hrefuses c)
    exact hrefuses

end Entry

/-! ### The order of keys -/

/-- The octets of a key tell the key. -/
theorem key_of_octets {a b : String} (h : Text.octets a.toList = Text.octets b.toList) : a = b :=
  Family.mk.inj (Family.octets_injective (f := ⟨a⟩) (g := ⟨b⟩) h)

theorem ordered_sorted (fields : Toml.Fields) : Toml.Ordered (Toml.sorted fields) :=
  pairwise_mergeSort_octets (fun field : String × Toml.Node => Text.octets field.1.toList) fields

/-- The same fields in the order of their keys are the same list. -/
theorem eq_of_ordered {fields others : Toml.Fields} (hdistinct : Toml.Distinct fields) (hfields : Toml.Ordered fields)
    (hothers : Toml.Ordered others) (h : fields.Perm others) : fields = others := by
  refine h.eq_of_pairwise (fun a b ha hb hab hba => ?_) hfields hothers
  have hkey : a.1 = b.1 := key_of_octets (List.le_antisymm hab hba)
  have hlookup := (Table.lookup_eq_some_iff hdistinct).2 ha
  have hother := (Table.lookup_eq_some_iff hdistinct).2 (h.mem_iff.2 hb)
  exact Prod.ext hkey (Option.some.inj (hlookup.symm.trans (hkey ▸ hother)))

/-! ### Entries over the defaults -/

section Entries
variable {entries : List Toml.Entry} {fields : Toml.Fields}

theorem mem_nodesOf {field : String × Toml.Node} :
    field ∈ nodesOf entries ↔ ∃ entry ∈ entries, (entry.1, entry.2.node) = field := List.mem_map

section Perm
variable (hfields : fields.Perm (nodesOf entries))
include hfields

/-- Entries make a configuration exactly if every one of them is taken. -/
theorem exists_ofFields_iff : (∃ c, ofFields fields = .ok c) ↔ ∀ entry ∈ entries, Takes entry := by
  constructor
  · rintro ⟨c, h⟩ entry hentry
    obtain ⟨before, after, hset⟩ := step_of_foldlM h _ (hfields.mem_iff.2 (mem_nodesOf.2 ⟨entry, hentry, rfl⟩))
    exact takes_of_set hset
  · intro htakes
    refine foldlM_of_forall fun field hfield c => ?_
    obtain ⟨entry, hentry, rfl⟩ := mem_nodesOf.1 (hfields.mem_iff.1 hfield)
    exact set_of_takes (htakes entry hentry) c

/-- If entries make no configuration, it is for the one that comes first of those that are not taken. -/
theorem refuses_of_ofFields (hordered : Toml.Ordered fields) {error : FieldError} (h : ofFields fields = .error error) :
    ∃ entry ∈ entries, Refuses entry error ∧
      ∀ other ∈ entries, ¬Takes other → Text.octets entry.1.toList ≤ Text.octets other.1.toList := by
  obtain ⟨front, field, back, between, rfl, hfront, hfield⟩ := foldlM_eq_error h
  obtain ⟨-, hback, -⟩ := List.pairwise_append.1 hordered
  obtain ⟨entry, hentry, rfl⟩ := mem_nodesOf.1 (hfields.mem_iff.1 (List.mem_append_right front List.mem_cons_self))
  refine ⟨entry, hentry, refuses_of_set hfield, fun other hother htakes => ?_⟩
  have hmem : (other.1, other.2.node) ∈ front ++ (entry.1, entry.2.node) :: back :=
    hfields.mem_iff.2 (mem_nodesOf.2 ⟨other, hother, rfl⟩)
  rcases List.mem_append.1 hmem with hmem | hmem
  · obtain ⟨before, after, hset⟩ := step_of_foldlM hfront _ hmem
    exact absurd (takes_of_set hset) htakes
  · rcases List.mem_cons.1 hmem with heq | hmem
    · rw [show entry.1 = other.1 from (congrArg Prod.fst heq).symm]
      exact List.le_refl _
    · exact (List.pairwise_cons.1 hback).1 _ hmem

end Perm

/-- A field has what its key is given, or what it had if its key is not given. -/
def Overlaid {α : Type} (entries : List Toml.Entry) (key : String) (Means : Scalar → α → Prop) (base found : α) :
    Prop :=
  (∀ value, (key, value) ∈ entries → Means value found) ∧ (key ∉ entries.map Prod.fst → found = base)

/-- The value is a text that is the name of the family without the white space at its ends. -/
def Names (value : Scalar) (family : Family) : Prop :=
  ∃ text, value = .text text ∧ Text.Trims text.toList family.name.toList

/-- The configuration has the values of the entries in the fields that they give, and the defaults in the others. -/
structure Overlays (entries : List Toml.Entry) (c : Config) : Prop where
  family : Overlaid entries "family" Names default.family c.family
  triple : Overlaid entries "triple" (fun value triple => value = .text triple) default.triple c.triple
  cpu : Overlaid entries "cpu" (fun value cpu => value = .text cpu) default.cpu c.cpu
  skipHeader : Overlaid entries "skip_kernel_header" (fun value skip => value = .boolean skip) default.skipHeader
    c.skipHeader

theorem overlaid_of_from {α : Type} {field : Field α} {Means : Scalar → α → Prop} {c : Config}
    (hdistinct : (entries.map Prod.fst).Nodup)
    (hread : ∀ {value : Scalar} {found : α}, field.read value.node.shape = .ok found → Means value found)
    (h : field.From (field.inDocument (nodesOf entries)) default c) :
    Overlaid entries field.key Means (field.get default) (field.get c) := by
  refine ⟨fun value hvalue => ?_, fun hkey => ?_⟩
  · have hlookup : Table.lookup field.key (nodesOf entries) = some value.node :=
      (Table.lookup_eq_some_iff (Toml.distinct_nodesOf hdistinct)).2 (List.mem_map_of_mem hvalue)
    rw [Field.inDocument, hlookup] at h
    exact hread h
  · rwa [Field.inDocument_eq_none (Toml.keys_nodesOf entries ▸ hkey)] at h

theorem eq_text_of_toText {value : Scalar} {text : String} (h : value.node.shape.toText = .ok text) :
    value = .text text := by
  cases value with
  | text other => exact congrArg Scalar.text (Except.ok.inj h)
  | boolean _ | integer _ => cases h

theorem eq_boolean_of_toBoolean {value : Scalar} {b : Bool} (h : value.node.shape.toBoolean = .ok b) :
    value = .boolean b := by
  cases value with
  | boolean other => exact congrArg Scalar.boolean (Except.ok.inj h)
  | text _ | integer _ => cases h

theorem names_of_toFamily {value : Scalar} {family : Family} (h : value.node.shape.toFamily = .ok family) :
    Names value family := by
  obtain ⟨text, htext, hparse⟩ := bind_eq_ok h
  have htrims := Text.trims_trim text.toList
  obtain ⟨-, -, hname⟩ := (Family.parse_eq_ok_iff htrims).1 (mapError_eq_ok hparse)
  exact ⟨text, eq_text_of_toText htext, hname ▸ htrims⟩

theorem overlays_of_ofFields (hfields : fields.Perm (nodesOf entries)) {c : Config}
    (hdistinct : (entries.map Prod.fst).Nodup) (h : ofFields fields = .ok c) : Overlays entries c := by
  have hnodes : Toml.Distinct (nodesOf entries) := Toml.distinct_nodesOf hdistinct
  have hfrom {α : Type} (field : Field α) : field.From (field.inDocument (nodesOf entries)) default c := by
    rw [Field.inDocument_of_perm hnodes hfields.symm]
    exact from_ofFields ((hfields.map Prod.fst).nodup_iff.2 hnodes) h field
  exact {
    family := overlaid_of_from hdistinct names_of_toFamily (hfrom .family)
    triple := overlaid_of_from hdistinct eq_text_of_toText (hfrom .triple)
    cpu := overlaid_of_from hdistinct eq_text_of_toText (hfrom .cpu)
    skipHeader := overlaid_of_from hdistinct eq_boolean_of_toBoolean (hfrom .skipHeader) }

end Entries

/-! ### Configurations written line by line -/

/-- The entries that write a configuration. -/
def entries (c : Config) : List Toml.Entry :=
  [("family", .text c.family.name), ("triple", .text c.triple), ("cpu", .text c.cpu),
    ("skip_kernel_header", .boolean c.skipHeader)]

theorem keys_entries (c : Config) : c.entries.map Prod.fst = ["family", "triple", "cpu", "skip_kernel_header"] := rfl

theorem nodup_keys_entries (c : Config) : (c.entries.map Prod.fst).Nodup := by
  rw [keys_entries]
  decide

theorem bareKey_entries (c : Config) : ∀ entry ∈ c.entries, Toml.BareKey entry.1 := by
  have hkeys : ∀ key ∈ ["family", "triple", "cpu", "skip_kernel_header"], Toml.BareKey key := by decide
  exact fun entry hentry => hkeys entry.1 (List.mem_map_of_mem hentry)

theorem takes_entries {c : Config} {name : String} (h : Family.parse name = .ok c.family) :
    ∀ entry ∈ c.entries, Takes entry := by
  simp only [Config.entries, List.forall_mem_cons]
  exact ⟨.family (Family.parse_name h), .triple c.triple, .cpu c.cpu, .skipHeader c.skipHeader, nofun⟩

/-- What the entries of a configuration lay over the defaults is the configuration. -/
theorem eq_of_overlays {c found : Config} {name : String} (h : Family.parse name = .ok c.family)
    (hoverlays : Overlays c.entries found) : found = c := by
  obtain ⟨text, htext, htrims⟩ := hoverlays.family.1 (.text c.family.name) (by simp [Config.entries])
  have htriple := hoverlays.triple.1 (.text c.triple) (by simp [Config.entries])
  have hcpu := hoverlays.cpu.1 (.text c.cpu) (by simp [Config.entries])
  have hskip := hoverlays.skipHeader.1 (.boolean c.skipHeader) (by simp [Config.entries])
  have hfamily : c.family = found.family := by
    cases htext
    obtain ⟨-, -, hname⟩ := (Family.parse_eq_ok_iff htrims).1 (Family.parse_name h)
    exact congrArg Family.mk (String.toList_inj.1 hname)
  obtain ⟨family, triple, cpu, skip⟩ := c
  cases htriple
  cases hcpu
  cases hskip
  cases hfamily
  rfl

/-- A configuration whose family was read is read back from its entries. -/
theorem ofFields_entries {c : Config} {name : String} (h : Family.parse name = .ok c.family) {fields : Toml.Fields}
    (hfields : fields.Perm (nodesOf c.entries)) : ofFields fields = .ok c := by
  obtain ⟨found, hfound⟩ := (exists_ofFields_iff hfields).2 (takes_entries h)
  rw [hfound, eq_of_overlays h (overlays_of_ofFields hfields (nodup_keys_entries c) hfound)]

end Config

/-! ### Documents -/

namespace DocumentReader
open Toml (nodesOf LinesOf)

/-- A document of lines that tells no key twice is read, and what is handed over is the entries of its lines. -/
def ReadsLines (reader : DocumentReader) : Prop :=
  ∀ {lines : List Toml.Entry} {text : String}, LinesOf lines text.toList → (lines.map Prod.fst).Nodup →
    ∃ fields, reader.read text = some fields ∧ fields.Perm (nodesOf lines)

/-- Fields are handed over in the order of their keys. -/
def HandsInOrder (reader : DocumentReader) : Prop :=
  ∀ {text : String} {fields : Toml.Fields}, reader.read text = some fields → Toml.Ordered fields

theorem readsLines_inOrder : inOrder.ReadsLines := by
  intro lines text hlines hdistinct
  refine ⟨Toml.sorted (nodesOf lines), ?_, Toml.perm_sorted _⟩
  show (Toml.parse text).map Toml.sorted = _
  rw [Toml.parse_lines hlines (Toml.distinct_nodesOf hdistinct), Option.map_some]

theorem handsInOrder_inOrder : inOrder.HandsInOrder := by
  intro text fields h
  obtain ⟨found, -, rfl⟩ := Option.map_eq_some_iff.1 h
  exact Config.ordered_sorted found

end DocumentReader

namespace Config
open Toml (Scalar nodesOf LinesOf writeLines)

section Documents
variable {reader : DocumentReader} (hreads : reader.ReadsLines) (horder : reader.HandsInOrder)
  {lines lines' : List Toml.Entry} {text text' : String}
include hreads horder

/-- What is made of a document of lines is made of the entries in the order of their keys. -/
theorem parse_of_lines (hlines : LinesOf lines text.toList) (hdistinct : (lines.map Prod.fst).Nodup) :
    ∃ fields, fields.Perm (nodesOf lines) ∧ Toml.Ordered fields ∧
      parse reader text = (ofFields fields).mapError .badField := by
  obtain ⟨fields, hread, hperm⟩ := hreads hlines hdistinct
  exact ⟨fields, hperm, horder hread, by rw [parse, hread]⟩

/-- What is made of a document of lines does not depend on their order. -/
theorem parse_of_perm (hlines : LinesOf lines text.toList) (hdistinct : (lines.map Prod.fst).Nodup)
    (hperm : lines.Perm lines') (hlines' : LinesOf lines' text'.toList) : parse reader text' = parse reader text := by
  obtain ⟨fields, hfields, hordered, hparse⟩ := parse_of_lines hreads horder hlines hdistinct
  obtain ⟨others, hothers, hordered', hparse'⟩ :=
    parse_of_lines hreads horder hlines' ((hperm.map Prod.fst).nodup_iff.1 hdistinct)
  have hnodes : (nodesOf lines).Perm (nodesOf lines') := hperm.map _
  have hsame : fields.Perm others := hfields.trans (hnodes.trans hothers.symm)
  have hfirst : Toml.Distinct fields := (hfields.map Prod.fst).nodup_iff.2 (Toml.distinct_nodesOf hdistinct)
  rw [hparse, hparse', eq_of_ordered hfirst hordered hordered' hsame]

/-- Let a reader read documents of lines, and hand fields over in the order of their keys; and let a document tell
entries line by line, no key twice. It is a configuration exactly if every entry is taken, and the configuration then
has the values of the entries over the defaults. Otherwise the error refuses an entry, and no entry that is not taken
has a key in front of the one of this entry. Documents of the same entries in other orders make the same of them. A
configuration whose family was read can be written as four such lines, and every document of these lines, in any order,
is read back as the configuration. -/
theorem lines_over_defaults (hlines : LinesOf lines text.toList) (hdistinct : (lines.map Prod.fst).Nodup) :
    ((∃ c, parse reader text = .ok c) ↔ ∀ entry ∈ lines, Takes entry) ∧
    (∀ c, parse reader text = .ok c → Overlays lines c) ∧
    (∀ error, parse reader text = .error error → ∃ entry ∈ lines, ∃ fault, error = .badField fault ∧ ¬Takes entry ∧
      Refuses entry fault ∧
      ∀ other ∈ lines, ¬Takes other → Text.octets entry.1.toList ≤ Text.octets other.1.toList) ∧
    (∀ lines' text', lines.Perm lines' → LinesOf lines' text'.toList → parse reader text' = parse reader text) ∧
    (∀ c name lines', Family.parse name = .ok c.family → c.entries.Perm lines' →
      LinesOf lines' (writeLines lines') ∧
        ∀ text', LinesOf lines' text'.toList → parse reader text' = .ok c) := by
  obtain ⟨fields, hfields, hordered, hparse⟩ := parse_of_lines hreads horder hlines hdistinct
  refine ⟨?_, fun c h => ?_, fun error h => ?_,
    fun lines' text' hperm => parse_of_perm hreads horder hlines hdistinct hperm,
    fun c name lines' hname hperm => ⟨?_, fun text' hlines' => ?_⟩⟩
  · rw [hparse, ← exists_ofFields_iff hfields]
    exact exists_congr fun c => ⟨mapError_eq_ok, fun h => by rw [h]; rfl⟩
  · exact overlays_of_ofFields hfields hdistinct (mapError_eq_ok (hparse ▸ h))
  · obtain ⟨fault, hfault, rfl⟩ := mapError_eq_error (hparse ▸ h)
    obtain ⟨entry, hentry, hrefuses, hleast⟩ := refuses_of_ofFields hfields hordered hfault
    exact ⟨entry, hentry, fault, rfl, hrefuses.not_takes, hrefuses, hleast⟩
  · exact Toml.linesOf_writeLines fun entry hentry => bareKey_entries c entry (hperm.mem_iff.2 hentry)
  · have hdistinct' : (lines'.map Prod.fst).Nodup := (hperm.map Prod.fst).nodup_iff.1 (nodup_keys_entries c)
    obtain ⟨others, hothers, -, hread⟩ := parse_of_lines hreads horder hlines' hdistinct'
    have hentries : (nodesOf c.entries).Perm (nodesOf lines') := hperm.map _
    rw [hread, ofFields_entries hname (hothers.trans hentries.symm)]
    rfl

end Documents

/-- A document of two lines with space, escapes and both ends of lines. -/
theorem two_lines_over_defaults :
    DocumentReader.inOrder.ReadsLines ∧ DocumentReader.inOrder.HandsInOrder ∧
    ∃ lines : List Toml.Entry, LinesOf lines "cpu=\x22gfx\\u0039\x22 \r\n family = \x22 R600\\t\x22".toList ∧
      (lines.map Prod.fst).Nodup ∧
      ∃ c, parse .inOrder "cpu=\x22gfx\\u0039\x22 \r\n family = \x22 R600\\t\x22" = .ok c ∧ c.family.name = "R600" ∧
        c.cpu = "gfx9" ∧ c.triple = default.triple ∧ c.skipHeader = true := by
  have plain {c : Char} (h : Toml.isPlain c = true ∧ c ≠ '\x22' ∧ c ≠ '\\') : Toml.Spells c [c] :=
    .plain h.1 h.2.1 h.2.2
  have hcpu : Toml.SpellsText "gfx9".toList ['g', 'f', 'x', '\\', 'u', '0', '0', '3', '9'] := by
    rw [show "gfx9".toList = ['g', 'f', 'x', '9'] by decide]
    exact .cons (plain (by decide)) (.cons (plain (by decide)) (.cons (plain (by decide))
      (.cons (@Toml.Spells.code '9' 'u' ['0', '0', '3', '9'] (by decide) (List.all_eq_true.1 (by decide))
        (by decide)) .nil)))
  have hfamily : Toml.SpellsText " R600\t".toList [' ', 'R', '6', '0', '0', '\\', 't'] := by
    rw [show " R600\t".toList = [' ', 'R', '6', '0', '0', '\t'] by decide]
    exact .cons (plain (by decide)) (.cons (plain (by decide)) (.cons (plain (by decide)) (.cons (plain (by decide))
      (.cons (plain (by decide)) (.cons (.letter (by decide)) .nil)))))
  have hblank : Toml.Spaces [' '] := List.forall_mem_cons.2 ⟨rfl, nofun⟩
  have hnone : Toml.Spaces [] := nofun
  have hfirst := Toml.LineOf.mk (by decide : Toml.BareKey "cpu") (.text hcpu) hnone hnone hnone hblank
  have hsecond := Toml.LineOf.mk (by decide : Toml.BareKey "family") (.text hfamily) hblank hblank hblank hnone
  have hspelled := LinesOf.cons hfirst (.returnFeed _) (.cons hsecond .last .nil)
  have hlines : LinesOf [("cpu", .text "gfx9"), ("family", .text " R600\t")]
      "cpu=\x22gfx\\u0039\x22 \r\n family = \x22 R600\\t\x22".toList := (congrArg (LinesOf _) (by decide)).mp hspelled
  have hdistinct : ([("cpu", .text "gfx9"), ("family", .text " R600\t")] : List Toml.Entry).map Prod.fst |>.Nodup := by
    decide
  obtain ⟨htaken, hoverlays, -⟩ :=
    lines_over_defaults DocumentReader.readsLines_inOrder DocumentReader.handsInOrder_inOrder hlines hdistinct
  refine ⟨DocumentReader.readsLines_inOrder, DocumentReader.handsInOrder_inOrder, _, hlines, hdistinct, ?_⟩
  have hparse : Family.parse " R600\t" = .ok ⟨"R600"⟩ := rfl
  obtain ⟨c, hc⟩ := htaken.2 (List.forall_mem_cons.2 ⟨.cpu "gfx9", List.forall_mem_cons.2 ⟨.family hparse, nofun⟩⟩)
  have hover := hoverlays c hc
  refine ⟨c, hc, ?_, ?_, hover.triple.2 (by decide), hover.skipHeader.2 (by decide)⟩
  · obtain ⟨text, htext, htrims⟩ := hover.family.1 (.text " R600\t") (by simp)
    obtain rfl := Scalar.text.inj htext
    exact String.toList_inj.1 ((Text.trims_iff.1 htrims).trans (by decide))
  · exact (Scalar.text.inj (hover.cpu.1 (.text "gfx9") (by simp))).symm

end Config

end GpuListing
